import NatProxy.Lib.ChunkedReader
import NatProxy.WebRTC.PaddedStream

/-!
# `Read` of the padded stream as a parser

`Read` of `golib/webrtc/padding.go` over an inner reader that gives its bytes in chunks. A turn of
its loop is that of `PaddedStream.readFrame` on the bytes that are left, whatever the chunks
(`turn_eq`). A slice expression that is out of range panics, which is none here. A caller makes
calls with buffers of any sizes and stops at the first error, as the callers of `Read` do.

`read_exact`: the bytes returned are the payloads of the longest part of the stream that is a list
of frames, and the error is `io.EOF` exactly if nothing follows this part. What is returned does not
depend on the chunks.
-/

namespace NatProxy.WebRTC.PaddedRead

open Lib List
open Lib.ChunkedReader (Answer Reader ReadError)
open WebRTC.PaddedStream

abbrev Inner := Reader UInt8

/-! ## One turn of the loop -/

def innerErr : ReadError → InnerErr
  | .eof => .eof
  | .unexpectedEOF => .unexpectedEOF

def readN (n : Nat) (inner : Inner) : Except InnerErr Bytes × Inner :=
  ((inner.readFull n).1.mapError innerErr, (inner.readFull n).2)

/-- `io.ReadFull` of two bytes and `binary.BigEndian.Uint16`. -/
def readUint16 (inner : Inner) : Except InnerErr Nat × Inner :=
  match readN 2 inner with
  | (.error e, inner) => (.error e, inner)
  | (.ok buf, inner) => (.ok (getNat buf), inner)

/-- `io.CopyN(io.Discard, inner, n)`, which is not called for no bytes. -/
def discardN (n : Nat) (inner : Inner) : Except InnerErr Unit × Inner :=
  if 0 < n then ((inner.copyN n).1.mapError innerErr, (inner.copyN n).2) else (.ok (), inner)

/-- How a turn ends: with a payload, with `continue` or with an error. -/
inductive Turn where
  | payload (p : Bytes)
  | skip
  | fail (e : ReadErr)
deriving DecidableEq, Repr

/-- The end of the frames `0x00` and `0x01`. -/
def payloadTurn (inner : Inner) : Turn × Inner :=
  match readUint16 inner with
  | (.error e, inner) => (.fail (.wrapped "padding: read payload len" e), inner)
  | (.ok payloadLen, inner) =>
    if payloadLen = 0 then (.skip, inner)
    else
      match readN payloadLen inner with
      | (.error e, inner) => (.fail (.wrapped "padding: read payload" e), inner)
      | (.ok payload, inner) => (.payload payload, inner)

/-- The `switch` on the flags byte. -/
def switchTurn (flags : UInt8) (inner : Inner) : Turn × Inner :=
  if flags = paddingFlagNone then payloadTurn inner
  else if flags = paddingFlagPad then
    match readUint16 inner with
    | (.error e, inner) => (.fail (.wrapped "padding: read padLen" e), inner)
    | (.ok padLen, inner) =>
      match discardN padLen inner with
      | (.error e, inner) => (.fail (.wrapped "padding: discard pad" e), inner)
      | (.ok _, inner) => payloadTurn inner
  else if flags = paddingFlagDecoy then
    match readUint16 inner with
    | (.error e, inner) => (.fail (.wrapped "padding: read decoy len" e), inner)
    | (.ok decoyLen, inner) =>
      match discardN decoyLen inner with
      | (.error e, inner) => (.fail (.wrapped "padding: discard decoy" e), inner)
      | (.ok _, inner) => (.skip, inner)
  else if flags = paddingFlagBurstEnd then (.skip, inner)
  else (.fail (.unknownFlags flags), inner)

def turn (inner : Inner) : Turn × Inner :=
  match readN 1 inner with
  | (.error e, inner) => (.fail (.inner e), inner)
  | (.ok buf, inner) => switchTurn (buf.headD 0) inner

/-! ### The turn depends on the bytes alone -/

/-- A read from chunks that gives what a read from the whole stream gives. -/
def Agrees {β : Type} (out : Except InnerErr β × Inner) (whole : Except InnerErr (β × Bytes)) :
    Prop :=
  match whole with
  | .ok (b, rest) => out.1 = .ok b ∧ out.2.rest = rest
  | .error e => out.1 = .error e ∧ out.2.rest = []

theorem agrees_readN (n : Nat) (inner : Inner) :
    Agrees (readN n inner) (readFull n inner.rest) := by
  obtain ⟨hout, hrest⟩ := ChunkedReader.readFull_eq inner n
  rw [readN, hout, ChunkedReader.fullOf, readFull]
  by_cases hn : n ≤ inner.rest.length
  · rw [if_pos hn, if_pos hn]
    exact ⟨rfl, hrest⟩
  · rw [if_neg hn, if_neg hn]
    refine ⟨?_, hrest.trans (drop_eq_nil_of_le (Nat.le_of_not_le hn))⟩
    cases inner.rest with
    | nil | cons b rest => rfl

theorem Agrees.cases {β : Type} {out : Except InnerErr β × Inner}
    {whole : Except InnerErr (β × Bytes)} (h : Agrees out whole) :
    (∃ b inner, out = (.ok b, inner) ∧ whole = .ok (b, inner.rest)) ∨
      ∃ e inner, out = (.error e, inner) ∧ whole = .error e ∧ inner.rest = [] := by
  obtain ⟨result, inner⟩ := out
  cases whole with
  | ok pair =>
    obtain ⟨rfl, hrest⟩ := h
    exact .inl ⟨pair.1, inner, rfl, by rw [hrest]⟩
  | error e =>
    obtain ⟨rfl, hrest⟩ := h
    exact .inr ⟨e, inner, rfl, rfl, hrest⟩

theorem agrees_readUint16 (inner : Inner) : Agrees (readUint16 inner) (readLen inner.rest) := by
  have hread := agrees_readN 2 inner
  rw [readUint16]
  match hstream : inner.rest with
  | [] =>
    rw [hstream] at hread
    obtain ⟨b, inner', -, hwhole⟩ | ⟨e, inner', hout, hwhole, hrest⟩ := hread.cases
    · cases hwhole
    · cases hwhole
      rw [hout]
      exact ⟨rfl, hrest⟩
  | [b] =>
    rw [hstream] at hread
    obtain ⟨b, inner', -, hwhole⟩ | ⟨e, inner', hout, hwhole, hrest⟩ := hread.cases
    · cases hwhole
    · cases hwhole
      rw [hout]
      exact ⟨rfl, hrest⟩
  | hi :: lo :: rest =>
    rw [hstream] at hread
    obtain ⟨b, inner', hout, hwhole⟩ | ⟨e, inner', -, hwhole, -⟩ := hread.cases
    · cases hwhole
      rw [hout]
      refine ⟨congrArg Except.ok ?_, rfl⟩
      rw [getUint16_toNat]
      simp [getNat]
    · cases hwhole

theorem discardN_cases (n : Nat) (inner : Inner) :
    (∃ inner', discardN n inner = (.ok (), inner') ∧
        PaddedStream.discard n inner.rest = .ok inner'.rest) ∨
      ∃ e inner', discardN n inner = (.error e, inner') ∧
        PaddedStream.discard n inner.rest = .error e ∧ inner'.rest = [] := by
  obtain ⟨hout, hrest⟩ := ChunkedReader.copyN_eq inner n
  rw [discardN, PaddedStream.discard, hout, ← hrest]
  by_cases hpos : 0 < n
  · rw [if_pos hpos]
    by_cases hn : n ≤ inner.rest.length
    · rw [if_pos hn, if_pos hn]
      exact .inl ⟨_, rfl, rfl⟩
    · rw [if_neg hn, if_neg hn]
      exact .inr ⟨_, _, rfl, rfl, hrest.trans (drop_eq_nil_of_le (Nat.le_of_not_le hn))⟩
  · obtain rfl : n = 0 := Nat.eq_zero_of_not_pos hpos
    rw [if_neg hpos, if_pos (Nat.zero_le _), hrest]
    exact .inl ⟨_, rfl, rfl⟩

def outcome : Turn × Inner → FrameRead
  | (.payload p, inner) => .payload p inner.rest
  | (.skip, inner) => .skip inner.rest
  | (.fail e, inner) => .fail e inner.rest

theorem payloadTurn_eq (inner : Inner) : outcome (payloadTurn inner) = readPayload inner.rest := by
  rw [payloadTurn, readPayload]
  obtain ⟨n, inner', hout, hwhole⟩ | ⟨e, inner', hout, hwhole, hrest⟩ :=
    (agrees_readUint16 inner).cases
  · rw [hout, hwhole]
    dsimp only
    by_cases hzero : n = 0
    · rw [if_pos hzero, if_pos hzero]
      rfl
    · rw [if_neg hzero, if_neg hzero]
      obtain ⟨p, inner'', hout, hwhole⟩ | ⟨e, inner'', hout, hwhole, hrest⟩ :=
        (agrees_readN n inner').cases
      · rw [hout, hwhole]
        rfl
      · rw [hout, hwhole]
        exact congrArg (FrameRead.fail _) hrest
  · rw [hout, hwhole]
    exact congrArg (FrameRead.fail _) hrest

theorem switchTurn_eq (flags : UInt8) (inner : Inner) :
    outcome (switchTurn flags inner) = readFrame (flags :: inner.rest) := by
  rw [switchTurn, readFrame]
  split_ifs
  · exact payloadTurn_eq inner
  · obtain ⟨n, inner', hout, hwhole⟩ | ⟨e, inner', hout, hwhole, hrest⟩ :=
      (agrees_readUint16 inner).cases
    · rw [hout, hwhole]
      dsimp only
      obtain ⟨inner'', hout, hwhole⟩ | ⟨e, inner'', hout, hwhole, hrest⟩ := discardN_cases n inner'
      · rw [hout, hwhole]
        exact payloadTurn_eq inner''
      · rw [hout, hwhole]
        exact congrArg (FrameRead.fail _) hrest
    · rw [hout, hwhole]
      exact congrArg (FrameRead.fail _) hrest
  · obtain ⟨n, inner', hout, hwhole⟩ | ⟨e, inner', hout, hwhole, hrest⟩ :=
      (agrees_readUint16 inner).cases
    · rw [hout, hwhole]
      dsimp only
      obtain ⟨inner'', hout, hwhole⟩ | ⟨e, inner'', hout, hwhole, hrest⟩ := discardN_cases n inner'
      · rw [hout, hwhole]
        rfl
      · rw [hout, hwhole]
        exact congrArg (FrameRead.fail _) hrest
    · rw [hout, hwhole]
      exact congrArg (FrameRead.fail _) hrest
  · rfl
  · rfl

/-- **A turn depends on the bytes that are left, and not on how they are cut.** -/
theorem turn_eq (inner : Inner) : outcome (turn inner) = readFrame inner.rest := by
  have hflags := agrees_readN 1 inner
  rw [turn]
  cases hstream : inner.rest with
  | nil =>
    rw [hstream] at hflags
    obtain ⟨b, inner', -, hwhole⟩ | ⟨e, inner', hout, hwhole, hrest⟩ := hflags.cases
    · cases hwhole
    · cases hwhole
      rw [hout]
      exact congrArg (FrameRead.fail _) hrest
  | cons flags rest =>
    rw [hstream] at hflags
    obtain ⟨b, inner', hout, hwhole⟩ | ⟨e, inner', -, hwhole, -⟩ := hflags.cases
    · have hbuf : b = [flags] ∧ inner'.rest = rest := by
        cases hwhole
        exact ⟨rfl, rfl⟩
      obtain ⟨rfl, rfl⟩ := hbuf
      rw [hout]
      exact switchTurn_eq flags inner'
    · cases hwhole

/-! ## `Read` -/

theorem turn_shortens {inner inner' : Inner} (h : turn inner = (.skip, inner')) :
    inner'.rest.length < inner.rest.length := by
  have hwithin := readFrame_within inner.rest
  rw [← turn_eq, h] at hwithin
  exact hwithin

def loop (inner : Inner) : Except ReadErr Bytes × Inner :=
  match h : turn inner with
  | (.payload p, inner') => (.ok p, inner')
  | (.skip, inner') =>
    have := turn_shortens h
    loop inner'
  | (.fail e, inner') => (.error e, inner')
termination_by inner.rest.length

theorem loop_eq (inner : Inner) :
    (∃ p inner', loop inner = (.ok p, inner') ∧
        nextPayload inner.rest = .ok (p, inner'.rest)) ∨
      ∃ e inner', loop inner = (.error e, inner') ∧
        nextPayload inner.rest = .error (e, inner'.rest) := by
  induction inner using loop.induct with
  | case1 inner p inner' h =>
    have hframe := turn_eq inner
    rw [h] at hframe
    refine .inl ⟨p, inner', ?_, nextPayload_of_payload hframe.symm⟩
    rw [loop]
    split <;> simp_all
  | case2 inner inner' h _ ih =>
    have hframe := turn_eq inner
    rw [h] at hframe
    have hloop : loop inner = loop inner' := by
      rw [loop]
      split <;> simp_all
    rw [hloop, nextPayload_of_skip hframe.symm]
    exact ih
  | case3 inner e inner' h =>
    have hframe := turn_eq inner
    rw [h] at hframe
    refine .inr ⟨e, inner', ?_, nextPayload_of_fail hframe.symm⟩
    rw [loop]
    split <;> simp_all

/-- The part of a `paddedStream` that `Read` uses. -/
structure Stream where
  inner : Inner
  readBuf : Bytes

def sliceFrom (b : Bytes) (n : Nat) : Option Bytes := if n ≤ b.length then some (b.drop n) else none

/-- `Read` of `n` bytes, and what it has put into the buffer; none is a panic. -/
def Stream.read (s : Stream) (n : Nat) : Option (Stream × Except ReadErr Bytes) :=
  if 0 < s.readBuf.length then
    let k := min n s.readBuf.length
    (sliceFrom s.readBuf k).map fun readBuf => ({ s with readBuf }, .ok (s.readBuf.take k))
  else
    match loop s.inner with
    | (.error e, inner) => some ({ s with inner }, .error e)
    | (.ok payload, inner) =>
      let k := min n payload.length
      if k < payload.length then
        (sliceFrom payload k).map fun readBuf => ({ inner, readBuf }, .ok (payload.take k))
      else some ({ s with inner }, .ok (payload.take k))

/-- Calls of `Read` up to the first error: what they return, and the error. -/
def Stream.reads (s : Stream) : List Nat → Option (List Bytes × Option ReadErr)
  | [] => some ([], none)
  | n :: sizes =>
    match s.read n with
    | none => none
    | some (_, .error e) => some ([], some e)
    | some (s, .ok p) => (s.reads sizes).map fun later => (p :: later.1, later.2)

/-! ## Every stream is frames up to where a turn fails -/

theorem readLen_cases (s : Bytes) :
    (∃ e, readLen s = .error e) ∨ ∃ n rest, n < 65536 ∧ s = lengthField n ++ rest := by
  match s with
  | [] => exact .inl ⟨_, rfl⟩
  | [_] => exact .inl ⟨_, rfl⟩
  | hi :: lo :: rest =>
    refine .inr ⟨(getUint16 hi lo).toNat, rest, UInt16.toNat_lt _, ?_⟩
    rw [lengthField, UInt16.ofNat_toNat, putUint16_getUint16]
    rfl

theorem readPayload_cases (s : Bytes) :
    (∃ context e, readPayload s = .fail (.wrapped context e) []) ∨
      ∃ p rest, p.length < 65536 ∧ s = lengthField p.length ++ (p ++ rest) := by
  rcases readLen_cases s with ⟨e, herr⟩ | ⟨n, rest, hn, rfl⟩
  · refine .inl ⟨"padding: read payload len", e, ?_⟩
    rw [readPayload, herr]
  · by_cases hlen : n ≤ rest.length
    · have htake : (rest.take n).length = n := length_take_of_le hlen
      refine .inr ⟨rest.take n, rest.drop n, by omega, ?_⟩
      rw [htake, take_append_drop]
    · have hzero : n ≠ 0 := by omega
      refine .inl ⟨"padding: read payload", if rest = [] then .eof else .unexpectedEOF, ?_⟩
      rw [readPayload, readLen_lengthField, Nat.mod_eq_of_lt hn]
      dsimp only
      rw [if_neg hzero, readFull, if_neg hlen]

theorem discard_cases (s : Bytes) :
    (∃ e, readLen s = .error e) ∨
      (∃ n rest e, readLen s = .ok (n, rest) ∧ PaddedStream.discard n rest = .error e) ∨
      ∃ data rest, data.length < 65536 ∧ s = lengthField data.length ++ (data ++ rest) ∧
        readLen s = .ok (data.length, data ++ rest) ∧
        PaddedStream.discard data.length (data ++ rest) = .ok rest := by
  rcases readLen_cases s with herr | ⟨n, rest, hn, rfl⟩
  · exact .inl herr
  · have hread := readLen_lengthField n rest
    rw [Nat.mod_eq_of_lt hn] at hread
    by_cases hlen : n ≤ rest.length
    · have htake : (rest.take n).length = n := length_take_of_le hlen
      refine .inr (.inr ⟨rest.take n, rest.drop n, by omega, ?_⟩)
      rw [htake, take_append_drop, PaddedStream.discard, if_pos hlen]
      exact ⟨rfl, hread, rfl⟩
    · refine .inr (.inl ⟨n, rest, .eof, hread, ?_⟩)
      rw [PaddedStream.discard, if_neg hlen]

theorem readFrame_cases (s : Bytes) :
    (∃ e rest, readFrame s = .fail e rest ∧ (e = .inner .eof ↔ s = [])) ∨
      ∃ f rest, s = Frame.bytes f ++ rest := by
  cases s with
  | nil => exact .inl ⟨_, _, rfl, by simp⟩
  | cons flags s =>
    rw [readFrame]
    split_ifs with hnone hpad hdecoy hend
    · subst hnone
      rcases readPayload_cases s with ⟨context, e, hfail⟩ | ⟨p, rest, hp, rfl⟩
      · exact .inl ⟨_, _, hfail, by simp⟩
      · exact .inr ⟨.plain p hp, rest, by simp [Frame.bytes]⟩
    · subst hpad
      rcases discard_cases s with ⟨e, herr⟩ | ⟨n, rest, e, hlen, herr⟩ |
        ⟨pad, rest, hn, rfl, hlen, hrest⟩
      · rw [herr]
        exact .inl ⟨_, _, rfl, by simp⟩
      · rw [hlen]
        dsimp only
        rw [herr]
        exact .inl ⟨_, _, rfl, by simp⟩
      · rw [hlen]
        dsimp only
        rw [hrest]
        rcases readPayload_cases rest with ⟨context, e, hfail⟩ | ⟨p, rest, hp, rfl⟩
        · exact .inl ⟨_, _, hfail, by simp⟩
        · exact .inr ⟨.padded pad p hn hp, rest, by simp [Frame.bytes]⟩
    · subst hdecoy
      rcases discard_cases s with ⟨e, herr⟩ | ⟨n, rest, e, hlen, herr⟩ |
        ⟨data, rest, hn, rfl, -, -⟩
      · rw [herr]
        exact .inl ⟨_, _, rfl, by simp⟩
      · rw [hlen]
        dsimp only
        rw [herr]
        exact .inl ⟨_, _, rfl, by simp⟩
      · exact .inr ⟨.decoy data hn, rest, by simp [Frame.bytes]⟩
    · subst hend
      exact .inr ⟨.burstEnd, s, rfl⟩
    · exact .inl ⟨_, _, rfl, by simp⟩

/-! ## The longest part that is a list of frames -/

/-- A stream cut behind its last frame; what follows makes a turn fail. -/
structure Cut (stream : Bytes) where
  frames : List Frame
  tail : Bytes
  err : ReadErr
  rest : Bytes
  eq : stream = encode frames ++ tail
  fails : readFrame tail = .fail err rest
  eof_iff : err = .inner .eof ↔ tail = []

theorem exists_cut (stream : Bytes) : Nonempty (Cut stream) := by
  -- on the number of bytes, since every frame has at least its flags byte
  induction hn : stream.length using Nat.strongRecOn generalizing stream with
  | _ n ih =>
    subst hn
    rcases readFrame_cases stream with ⟨e, rest, hfail, heof⟩ | ⟨f, rest, rfl⟩
    · exact ⟨⟨[], stream, e, rest, rfl, hfail, heof⟩⟩
    · have hpos : 0 < f.bytes.length := by
        cases f <;> exact Nat.succ_pos _
      have hlt : rest.length < (f.bytes ++ rest).length := by
        rw [length_append]
        omega
      obtain ⟨cut⟩ := ih rest.length hlt rest rfl
      refine ⟨⟨f :: cut.frames, cut.tail, cut.err, cut.rest, ?_, cut.fails, cut.eof_iff⟩⟩
      rw [encode, flatMap_cons, append_assoc]
      exact congrArg (f.bytes ++ ·) cut.eq

theorem outcome_inj {f g : Frame} {x y : Bytes} (h : f.outcome x = g.outcome y) : x = y := by
  unfold Frame.outcome at h
  split_ifs at h
  · exact FrameRead.skip.inj h
  · exact (FrameRead.payload.inj h).2

theorem Cut.longest {stream : Bytes} (cut : Cut stream) {gs : List Frame}
    (h : encode gs <+: stream) : encode gs <+: encode cut.frames := by
  obtain ⟨frames, tail, err, rest, heq, hfails, -⟩ := cut
  dsimp only
  induction gs generalizing stream frames with
  | nil => exact nil_prefix
  | cons g gs ih =>
    obtain ⟨after, hafter⟩ := h
    rw [encode, flatMap_cons, append_assoc] at hafter
    have hread := readFrame_bytes g (gs.flatMap Frame.bytes ++ after)
    rw [hafter, heq] at hread
    cases frames with
    | nil =>
      -- the stream begins with the frame `g`, but its turn fails
      rw [encode, flatMap_nil, nil_append, hfails, Frame.outcome] at hread
      split_ifs at hread
    | cons f fs =>
      rw [encode, flatMap_cons, append_assoc] at heq
      rw [encode, flatMap_cons, append_assoc, readFrame_bytes] at hread
      have hrest := outcome_inj hread
      have hbytes : f.bytes = g.bytes := by
        rw [← hrest] at hafter
        exact append_cancel_right (heq.symm.trans hafter.symm)
      rw [encode, encode, flatMap_cons, flatMap_cons, hbytes]
      exact (prefix_append_right_inj _).mpr (ih ⟨after, hrest.symm⟩ fs rfl)

/-! ## The calls -/

section Calls

variable {tail rest : Bytes} {err : ReadErr}

theorem sliceFrom_min (b : Bytes) (n : Nat) : sliceFrom b (min n b.length) = some (b.drop n) := by
  rw [sliceFrom, if_pos (Nat.min_le_right _ _)]
  by_cases hn : n ≤ b.length
  · rw [Nat.min_eq_left hn]
  · simp_all

theorem take_min (b : Bytes) (n : Nat) : b.take (min n b.length) = b.take n :=
  take_eq_take_min.symm

theorem read_buffered {s : Stream} (h : s.readBuf ≠ []) (n : Nat) :
    s.read n = some ({ s with readBuf := s.readBuf.drop n }, .ok (s.readBuf.take n)) := by
  rw [Stream.read, if_pos (length_pos_iff.mpr h)]
  dsimp only
  rw [sliceFrom_min, take_min]
  rfl

theorem read_payload {s : Stream} (h : s.readBuf = []) {p : Bytes} {inner : Inner}
    (hloop : loop s.inner = (.ok p, inner)) (n : Nat) :
    s.read n = some (⟨inner, p.drop n⟩, .ok (p.take n)) := by
  rw [Stream.read, h, if_neg (by simp), hloop]
  dsimp only
  rw [sliceFrom_min, take_min]
  split_ifs with hlong
  · rfl
  · rw [drop_eq_nil_of_le (by omega)]

theorem read_error {s : Stream} (h : s.readBuf = []) {e : ReadErr} {inner : Inner}
    (hloop : loop s.inner = (.error e, inner)) (n : Nat) :
    s.read n = some (⟨inner, []⟩, .error e) := by
  rw [Stream.read, h, if_neg (by simp), hloop]

/-- **One call** returns the next bytes, at least one if its buffer is not empty, or there are none
left and it fails. -/
theorem read_step (hfails : readFrame tail = .fail err rest) {s : Stream} {fs : List Frame}
    (hs : s.inner.rest = encode fs ++ tail) (n : Nat) :
    (∃ s' p gs, s.read n = some (s', .ok p) ∧ s'.inner.rest = encode gs ++ tail ∧
        s.readBuf ++ payloads fs = p ++ (s'.readBuf ++ payloads gs) ∧ (0 < n → p ≠ [])) ∨
      (∃ s', s.read n = some (s', .error err)) ∧ s.readBuf ++ payloads fs = [] := by
  have htake {p : Bytes} (hp : p ≠ []) (hn : 0 < n) : p.take n ≠ [] := by
    rw [Ne, take_eq_nil_iff, not_or]
    exact ⟨Nat.ne_of_gt hn, hp⟩
  by_cases hbuf : s.readBuf = []
  · rw [hbuf, nil_append]
    rcases nextPayload_encode fs tail with ⟨hnone, hnext⟩ | ⟨p, gs, hp, hpayloads, hnext⟩
    · rw [nextPayload_of_fail hfails] at hnext
      rcases loop_eq s.inner with ⟨p, inner, -, hwhole⟩ | ⟨e, inner, hloop, hwhole⟩
      · rw [hs, hnext] at hwhole
        cases hwhole
      · rw [hs, hnext] at hwhole
        obtain ⟨rfl, -⟩ := Prod.mk.inj (Except.error.inj hwhole)
        exact .inr ⟨⟨_, read_error hbuf hloop n⟩, hnone⟩
    · rcases loop_eq s.inner with ⟨q, inner, hloop, hwhole⟩ | ⟨e, inner, -, hwhole⟩
      · rw [hs, hnext] at hwhole
        obtain ⟨rfl, hrest⟩ := Prod.mk.inj (Except.ok.inj hwhole)
        refine .inl ⟨_, _, gs, read_payload hbuf hloop n, hrest.symm, ?_, htake hp⟩
        rw [hpayloads, ← append_assoc, take_append_drop]
      · rw [hs, hnext] at hwhole
        cases hwhole
  · refine .inl ⟨_, _, fs, read_buffered hbuf n, hs, ?_, htake hbuf⟩
    rw [← append_assoc, take_append_drop]

/-- **The calls up to the first error.** -/
theorem reads_spec (hfails : readFrame tail = .fail err rest) (sizes : List Nat) {s : Stream}
    {fs : List Frame} (hs : s.inner.rest = encode fs ++ tail) :
    ∃ returned failed, s.reads sizes = some (returned, failed) ∧
      (failed = none → returned.flatten <+: s.readBuf ++ payloads fs) ∧
      (∀ e, failed = some e → e = err ∧ returned.flatten = s.readBuf ++ payloads fs) ∧
      ((s.readBuf ++ payloads fs).length < (sizes.filter (0 < ·)).length → failed ≠ none) := by
  induction sizes generalizing s fs with
  | nil =>
    refine ⟨[], none, rfl, fun _ => nil_prefix, nofun, fun hlen => ?_⟩
    exact absurd hlen (Nat.not_lt_zero _)
  | cons n sizes ih =>
    rcases read_step hfails hs n with ⟨s', p, gs, hread, hrest, hbytes, hpos⟩ |
      ⟨⟨s', hread⟩, hnone⟩
    · obtain ⟨returned, failed, hreads, hopen, hend, hlen⟩ := ih hrest
      refine ⟨p :: returned, failed, ?_, fun hf => ?_, fun e he => ?_, fun hcount => hlen ?_⟩
      · rw [Stream.reads, hread]
        dsimp only
        rw [hreads]
        rfl
      · rw [hbytes, flatten_cons]
        exact (prefix_append_right_inj p).mpr (hopen hf)
      · obtain ⟨rfl, hall⟩ := hend e he
        refine ⟨rfl, ?_⟩
        rw [hbytes, flatten_cons, hall]
      · -- a call with room for a byte has returned one
        rw [hbytes, length_append] at hcount
        by_cases hn : 0 < n
        · have hp := length_pos_iff.mpr (hpos hn)
          rw [filter_cons_of_pos (by simpa using hn), length_cons] at hcount
          omega
        · rw [filter_cons_of_neg (by simpa using hn)] at hcount
          omega
    · grind [Option.some.inj, Stream.reads, hnone.symm]

end Calls

/-! ## Chunks -/

def Alike (s t : Stream) : Prop := s.inner.rest = t.inner.rest ∧ s.readBuf = t.readBuf

theorem read_alike {s t : Stream} (h : Alike s t) (n : Nat) :
    ∃ s' t' out, s.read n = some (s', out) ∧ t.read n = some (t', out) ∧ Alike s' t' := by
  obtain ⟨hrest, hbuf⟩ := h
  by_cases hempty : s.readBuf = []
  · have hempty' : t.readBuf = [] := hbuf ▸ hempty
    rcases loop_eq s.inner with ⟨p, inner, hloop, hwhole⟩ | ⟨e, inner, hloop, hwhole⟩
    · rcases loop_eq t.inner with ⟨q, inner', hloop', hwhole'⟩ | ⟨e, inner', -, hwhole'⟩
      · rw [← hrest, hwhole] at hwhole'
        obtain ⟨rfl, hleft⟩ := Prod.mk.inj (Except.ok.inj hwhole')
        exact ⟨_, _, _, read_payload hempty hloop n, read_payload hempty' hloop' n, hleft, rfl⟩
      · rw [← hrest, hwhole] at hwhole'
        cases hwhole'
    · rcases loop_eq t.inner with ⟨q, inner', -, hwhole'⟩ | ⟨e', inner', hloop', hwhole'⟩
      · rw [← hrest, hwhole] at hwhole'
        cases hwhole'
      · rw [← hrest, hwhole] at hwhole'
        obtain ⟨rfl, hleft⟩ := Prod.mk.inj (Except.error.inj hwhole')
        exact ⟨_, _, _, read_error hempty hloop n, read_error hempty' hloop' n, hleft, rfl⟩
  · have hempty' : t.readBuf ≠ [] := hbuf ▸ hempty
    have hread := read_buffered hempty' n
    rw [← hbuf] at hread
    exact ⟨_, _, _, read_buffered hempty n, hread, hrest, rfl⟩

/-- **The chunks do not matter.** -/
theorem reads_alike {s t : Stream} (h : Alike s t) (sizes : List Nat) :
    s.reads sizes = t.reads sizes := by
  induction sizes generalizing s t with
  | nil => rfl
  | cons n sizes ih =>
    obtain ⟨s', t', out, hs, ht, halike⟩ := read_alike h n
    rw [Stream.reads, Stream.reads, hs, ht]
    cases out with
    | error e => rfl
    | ok p =>
      dsimp only
      rw [ih halike]

/-- **`Read` is an exact parser.** -/
theorem read_exact (stream : Bytes) :
    ∃ (fs : List Frame) (tail : Bytes), stream = encode fs ++ tail ∧
      (∀ gs, encode gs <+: stream → encode gs <+: encode fs) ∧
      ∀ sizes, ∃ returned failed,
        (∀ answers, Stream.reads ⟨⟨stream, answers⟩, []⟩ sizes = some (returned, failed)) ∧
          (failed = none → returned.flatten <+: payloads fs) ∧
          (∀ e, failed = some e → returned.flatten = payloads fs ∧
            (e = .inner .eof ↔ tail = [])) ∧
          ((payloads fs).length < (sizes.filter (0 < ·)).length → failed ≠ none) := by
  obtain ⟨cut⟩ := exists_cut stream
  refine ⟨cut.frames, cut.tail, cut.eq, fun gs => cut.longest, fun sizes => ?_⟩
  obtain ⟨returned, failed, hreads, hopen, hend, hlen⟩ :=
    reads_spec cut.fails sizes (s := ⟨⟨stream, []⟩, []⟩) cut.eq
  refine ⟨returned, failed, fun answers => ?_, hopen, fun e he => ?_, hlen⟩
  · have halike : Alike ⟨⟨stream, answers⟩, []⟩ ⟨⟨stream, []⟩, []⟩ := ⟨rfl, rfl⟩
    exact (reads_alike halike sizes).trans hreads
  · obtain ⟨rfl, hall⟩ := hend e he
    exact ⟨hall, cut.eof_iff⟩

end NatProxy.WebRTC.PaddedRead
