import NatProxy.Lib.JsonStruct
import NatProxy.Lib.LineScanner

/-!
# A session slot, streamed and polled

The signal server stores the body of a post as it is and hands it out in two ways: `GET` returns it
(`handleSession` in `signalserver/cmd/signalserver/main.go`), and `sendSessionSSE` writes it after
`data: ` into an event of the stream. On the other side `getSDPInfo` unmarshals what it gets, and
`WaitSDPAnswersSSE` and `StreamSDPOffers` (`golib/signaling/signaling.go`) unmarshal each line of
the stream that begins with `data: `. They read it with a `bufio.Scanner`, whose lines have a limit.

`streamed_iff`: an event gives what polling gives if its first line fits and the rest of the body is
blank, or if neither gives a payload; `newline_not_streamed` is a body that is not streamed.
`streamed_before_long`: a stream of bodies without newlines, with keepalives between them, gives
what polling gives up to the first body that does not fit.
-/

namespace NatProxy.Signaling.SessionStream

open Lib Lib.LineScanner List

abbrev Bytes := List UInt8

def bytes (text : String) : Bytes := Text.utf8Encode text.toList

def newline : UInt8 := 10

def carriageReturn : UInt8 := 13

/-! ## The server -/

/-- The body of a stored post. What `encoding/json` rejects for its depth or its numbers is not told
apart. -/
structure Body where
  bytes : Bytes
  ne : bytes ≠ []
  size : bytes.length ≤ 512 * 1024
  valid : (Json.parse (Text.runes bytes)).isSome = true

/-- `readBodyLimit` cuts a longer body off, and what is left is checked. -/
def acceptBody (request : Bytes) : Option Body :=
  if h : request.take (512 * 1024) ≠ [] ∧
      (Json.parse (Text.runes (request.take (512 * 1024)))).isSome = true then
    some ⟨request.take (512 * 1024), h.1, length_take_le _ _, h.2⟩
  else none

def dataField : Bytes := bytes "data: "

def sendSessionSSE (body : Body) : Bytes := dataField ++ body.bytes ++ [newline, newline]

def keepalive : Bytes := bytes ":keepalive" ++ [newline, newline]

/-- What `handleSessionStream` writes, one after the other. -/
inductive Piece where
  | event (body : Body)
  | keepalive

def Piece.bytes : Piece → Bytes
  | .event body => sendSessionSSE body
  | .keepalive => SessionStream.keepalive

def Piece.body? : Piece → Option Body
  | .event body => some body
  | .keepalive => none

/-! ## The client -/

def payloadSchema : Json.Schema where
  Field := Unit
  decEq := inferInstance
  fields := [()]
  name := fun _ => "sdp"
  kind := fun _ => .string
  omitempty := fun _ => false
  mem_fields := fun _ => mem_cons_self
  nodup_names := nodup_singleton _

/-- `json.Unmarshal` into an `sdpPayload`: its SDP, or none for an error. -/
def readPayload (text : List Char) : Option String :=
  (payloadSchema.unmarshal payloadSchema.zero text).map fun payload => payload ()

def unmarshalPayload (data : Bytes) : Option String := readPayload (Text.runes data)

/-- `GET`, and `json.Unmarshal` of what it returns, in `getSDPInfo`. -/
def polledPayload (body : Body) : Option String := unmarshalPayload body.bytes

def maxScanTokenSize : Nat := 64 * 1024

def dropCR (line : Bytes) : Bytes :=
  if line.getLast? = some carriageReturn then line.dropLast else line

/-- The lines of a `bufio.Scanner`, and whether it stopped at one that is too long. -/
def scan (stream : Bytes) : List Bytes × Bool :=
  ((scanLines newline maxScanTokenSize stream).1.map dropCR,
    (scanLines newline maxScanTokenSize stream).2)

/-- What a line is unmarshalled to, if it has data. -/
def linePayload (line : Bytes) : Option (Option String) :=
  if dataField <+: line then some (unmarshalPayload (line.drop dataField.length)) else none

/-- The results of `json.Unmarshal` in the line loop of either function. -/
def streamedPayloads (stream : Bytes) : List (Option String) :=
  (scan stream).1.filterMap linePayload

inductive WaitResult where
  | answers (sdps : List String)
  | parseError
  | openError (err : String)
  | readError
  | waiting
deriving DecidableEq, Repr

section Loops

-- decryption and the reading of the array of SDPs
variable (openSDPs : String → Except String (List String))

/-- The loop of `WaitSDPAnswersSSE` over what its lines were unmarshalled to. -/
def waitLoop (tooLong : Bool) : List (Option String) → WaitResult
  | [] => if tooLong then .readError else .waiting
  | none :: _ => .parseError
  | some sdp :: rest =>
    if sdp = "" then waitLoop tooLong rest
    else
      match openSDPs sdp with
      | .error err => .openError err
      -- an empty array is passed over like an empty payload
      | .ok [] => waitLoop tooLong rest
      | .ok sdps => .answers sdps

def waitSDPAnswersSSE (stream : Bytes) : WaitResult :=
  waitLoop openSDPs (scan stream).2 (streamedPayloads stream)

/-- What a payload makes `StreamSDPOffers` deliver. Errors are passed over. -/
def delivered : Option String → Option (List String)
  | none => none
  | some sdp =>
    if sdp = "" then none
    else
      match openSDPs sdp with
      | .error _ => none
      | .ok [] => none
      | .ok sdps => some sdps

def streamSDPOffers (stream : Bytes) : List (List String) :=
  (streamedPayloads stream).filterMap (delivered openSDPs)

end Loops

/-! ## The lines of an event -/

def Body.firstLine (body : Body) : Bytes := body.bytes.takeWhile (· ≠ newline)

/-- What follows the first line, from its newline on. -/
def Body.later (body : Body) : Bytes := body.bytes.dropWhile (· ≠ newline)

/-- The first line, after the field name, is shorter than the scanner's buffer. -/
def Body.Fits (body : Body) : Prop :=
  dataField.length + body.firstLine.length < maxScanTokenSize

instance (body : Body) : Decidable body.Fits := inferInstanceAs (Decidable (_ < _))

/-- Newlines stand only among the blanks at the end. -/
def Body.OneLine (body : Body) : Prop := Json.Blank (Text.runes body.later)

section Lines

variable (body : Body)

theorem firstLine_append_later : body.firstLine ++ body.later = body.bytes :=
  takeWhile_append_dropWhile

theorem newline_notMem_firstLine : newline ∉ body.firstLine := by
  intro h
  simpa using mem_takeWhile_imp h

theorem later_eq : body.later = [] ∨ ∃ rest, body.later = newline :: rest := by
  cases hlater : body.later with
  | nil => exact .inl rfl
  | cons b rest =>
    have hhead := head?_dropWhile_not (fun b => decide (b ≠ newline)) body.bytes
    rw [← Body.later, hlater] at hhead
    have hb : b = newline := by simpa using hhead
    exact .inr ⟨rest, by rw [hb]⟩

theorem runes_newline (a b : Bytes) :
    Text.runes (a ++ newline :: b) = Text.runes a ++ '\n' :: Text.runes b :=
  Text.runes_append (by decide) a b

theorem runes_bytes : Text.runes body.bytes =
    Text.runes body.firstLine ++ Text.runes body.later := by
  rw [← firstLine_append_later]
  rcases later_eq body with hlater | ⟨rest, hlater⟩
  · rw [hlater, append_nil]
    exact (append_nil _).symm
  · rw [hlater, runes_newline]
    rfl

theorem dropCR_data (line : Bytes) : dropCR (dataField ++ line) = dataField ++ dropCR line := by
  rcases eq_or_ne line [] with rfl | hne
  · decide
  · unfold dropCR
    rw [getLast?_append_of_ne_nil _ hne]
    split
    · exact dropLast_append_of_ne_nil hne
    · rfl

theorem unmarshalPayload_congr {a b : Bytes}
    (h : Json.parse (Text.runes a) = Json.parse (Text.runes b)) :
    unmarshalPayload a = unmarshalPayload b := by
  simp only [unmarshalPayload, readPayload, Json.Schema.unmarshal, h]

/-- A carriage return at the end is a blank. -/
theorem unmarshalPayload_dropCR (line : Bytes) :
    unmarshalPayload (dropCR line) = unmarshalPayload line := by
  unfold dropCR
  split
  · next hlast =>
    obtain ⟨front, rfl⟩ := getLast?_eq_some_iff.mp hlast
    apply unmarshalPayload_congr
    rw [dropLast_concat, Text.runes_append (by decide)]
    exact (Json.parse_append_blank _ fun c hc => by
      rw [mem_singleton.mp hc]
      decide).symm
  · rfl

theorem linePayload_data (line : Bytes) :
    linePayload (dropCR (dataField ++ line)) = some (unmarshalPayload line) := by
  rw [dropCR_data, linePayload, if_pos (prefix_append _ _), drop_left, unmarshalPayload_dropCR]

/-- No later line of an event has data: in a JSON text no line begins with a `d`. -/
theorem linePayload_later {rest line : Bytes}
    (hrest : body.bytes ++ [newline, newline] = body.firstLine ++ newline :: rest)
    (hline : line ∈ (scanLines newline maxScanTokenSize rest).1) :
    linePayload (dropCR line) = none := by
  apply if_neg
  intro hdata
  have hline' : dropCR line <+: line := by
    unfold dropCR
    split
    · exact dropLast_prefix line
    · exact prefix_refl line
  obtain ⟨payload, rfl⟩ := hdata.trans hline'
  have hinfix : newline :: (dataField ++ payload) <:+: body.bytes ++ [newline, newline] := by
    rw [hrest]
    exact (infix_of_mem_scanFrom hline).trans (suffix_append _ _).isInfix
  obtain ⟨a, b, hab⟩ := hinfix
  obtain ⟨v, hv⟩ := Option.isSome_iff_exists.mp body.valid
  have hclear : Json.Clear (Text.runes (body.bytes ++ [newline, newline])) := by
    rw [runes_newline]
    exact (Json.clear_of_parse hv).append (Json.clear_of_notMem (by decide))
  rw [← hab, append_assoc, cons_append, runes_newline] at hclear
  have hpair : ['\n', 'd'] <:+: '\n' :: (Text.runes a ++
      '\n' :: Text.runes (dataField ++ payload ++ b)) :=
    ⟨'\n' :: Text.runes a, _, by rw [append_assoc]; rfl⟩
  exact isChain_pair.mp ( IsChain.infix hclear hpair) rfl rfl

theorem exists_rest : ∃ rest,
    body.bytes ++ [newline, newline] = body.firstLine ++ newline :: rest := by
  rw [← firstLine_append_later, append_assoc]
  rcases later_eq body with hlater | ⟨rest, hlater⟩
  · exact ⟨[newline], by rw [hlater]; rfl⟩
  · exact ⟨rest ++ [newline, newline], by rw [hlater]; rfl⟩

/-- An event gives what its first line is unmarshalled to, if that line fits. -/
theorem streamedPayloads_event : streamedPayloads (sendSessionSSE body) =
    if body.Fits then [unmarshalPayload body.firstLine] else [] := by
  obtain ⟨rest, hrest⟩ := exists_rest body
  have hline : newline ∉ dataField ++ body.firstLine := by
    rw [mem_append, not_or]
    exact ⟨by decide, newline_notMem_firstLine body⟩
  have hlength : (dataField ++ body.firstLine).length = dataField.length + body.firstLine.length :=
    length_append
  rw [streamedPayloads, scan, sendSessionSSE, append_assoc, hrest, ← append_assoc]
  split
  · next hfits =>
    have hlater : ((scanLines newline maxScanTokenSize rest).1.map dropCR).filterMap linePayload =
        [] := by
      rw [filterMap_eq_nil_iff]
      intro line' hmem
      obtain ⟨line, hline, rfl⟩ := mem_map.mp hmem
      exact linePayload_later body hrest hline
    rw [scanLines_append hline (hlength ▸ hfits), map_cons, filterMap_cons_some
      (linePayload_data _), hlater]
  · next hlong =>
    have hlong' : maxScanTokenSize ≤
        ([] : Bytes).length + (dataField ++ body.firstLine).length := by
      rw [hlength, length_nil, Nat.zero_add]
      exact Nat.le_of_not_lt hlong
    rw [scanLines, scanFrom_long hline (by decide) hlong']
    rfl

/-- The first line is unmarshalled to what the body is, if nothing but blanks follows it. Otherwise
it is no JSON text. -/
theorem unmarshalPayload_firstLine : unmarshalPayload body.firstLine = polledPayload body ↔
    body.OneLine ∨ polledPayload body = none := by
  by_cases hone : body.OneLine
  · refine iff_of_true (unmarshalPayload_congr ?_) (.inl hone)
    rw [runes_bytes, Json.parse_append_blank _ hone]
  · have hnone : Json.parse (Text.runes body.firstLine) = none := by
      rw [Option.eq_none_iff_forall_ne_some]
      intro v hv
      have hends : Json.Ends (Text.runes body.later) := by
        rcases later_eq body with hlater | ⟨rest, hlater⟩
        · rw [hlater]
          exact nofun
        · rw [hlater]
          show Json.Ends ('\n' :: Text.runes rest)
          exact Json.ends_cons (by decide) _
      have hvalid := body.valid
      rw [runes_bytes, Json.parse_append_of_parse hv hends,
        if_neg (mt Json.skipSpace_eq_nil_iff.mp hone)] at hvalid
      cases hvalid
    have hfirst : unmarshalPayload body.firstLine = none := by
      simp only [unmarshalPayload, readPayload, Json.Schema.unmarshal, hnone]
      rfl
    rw [hfirst, or_iff_right hone, eq_comm]

/-- **When a body is streamed as it is polled.** -/
theorem streamed_iff : streamedPayloads (sendSessionSSE body) = [polledPayload body] ↔
    body.Fits ∧ (body.OneLine ∨ polledPayload body = none) := by
  rw [streamedPayloads_event, ← unmarshalPayload_firstLine]
  split
  · next hfits => rw [cons.injEq, and_iff_left rfl, and_iff_right hfits]
  · next hlong => exact iff_of_false (fun h => (nomatch h)) fun h => hlong h.1

end Lines

def brokenBody : Body where
  bytes := bytes "\x7b\n\"sdp\":\"x\"\x7d"
  ne := by decide
  size := by decide
  valid := by decide +kernel

theorem newline_not_streamed :
    (acceptBody brokenBody.bytes).map Body.bytes = some brokenBody.bytes ∧
      polledPayload brokenBody = some "x" ∧
      streamedPayloads (sendSessionSSE brokenBody) = [none] ∧
      waitSDPAnswersSSE (fun sdp => .ok [sdp]) (sendSessionSSE brokenBody) = .parseError ∧
      streamSDPOffers (fun sdp => .ok [sdp]) (sendSessionSSE brokenBody) = [] := by
  refine ⟨?_, ?_, ?_, ?_, ?_⟩ <;> decide +kernel

/-! ## Streams of several events -/

def Piece.lines : Piece → List Bytes
  | .event body => [dataField ++ body.bytes, []]
  | .keepalive => [SessionStream.bytes ":keepalive", []]

def Piece.fits : Piece → Bool
  | .event body => body.Fits
  | .keepalive => true

theorem Piece.bytes_eq (piece : Piece) :
    piece.bytes = piece.lines.flatMap fun line => line ++ [newline] := by
  cases piece with
  | event body => simp [Piece.bytes, sendSessionSSE, Piece.lines]
  | keepalive => rfl

/-- No body of the stream has a newline. -/
def Lined (pieces : List Piece) : Prop := ∀ body, Piece.event body ∈ pieces → newline ∉ body.bytes

theorem Body.fits_iff {body : Body} (h : newline ∉ body.bytes) :
    (dataField ++ body.bytes).length < maxScanTokenSize ↔ body.Fits := by
  have hfirst : body.firstLine = body.bytes :=
    takeWhile_eq_self_iff.mpr fun b hb => decide_eq_true fun heq => h (heq ▸ hb)
  rw [Body.Fits, hfirst, length_append]

theorem Lined.notMem_lines {pieces : List Piece} (h : Lined pieces) :
    ∀ line ∈ pieces.flatMap Piece.lines, newline ∉ line := by
  intro line hline
  obtain ⟨piece, hpiece, hmem⟩ := mem_flatMap.mp hline
  cases piece with
  | event body =>
    obtain rfl | rfl := mem_pair.mp hmem
    · rw [mem_append, not_or]
      exact ⟨by decide, h body hpiece⟩
    · exact not_mem_nil
  | keepalive =>
    obtain rfl | rfl := mem_pair.mp hmem
    · decide
    · exact not_mem_nil

/-- The payloads of the lines up to the first that is too long, and whether there is one. -/
theorem Lined.payloads {pieces : List Piece} (h : Lined pieces) :
    (((pieces.flatMap Piece.lines).takeWhile (·.length < maxScanTokenSize)).map dropCR).filterMap
        linePayload = ((pieces.takeWhile Piece.fits).filterMap Piece.body?).map polledPayload ∧
      (pieces.flatMap Piece.lines).all (·.length < maxScanTokenSize) = pieces.all Piece.fits := by
  have hempty : decide (([] : Bytes).length < maxScanTokenSize) = true := by decide
  have hblank : linePayload (dropCR []) = none := by decide
  induction pieces with
  | nil => exact ⟨rfl, rfl⟩
  | cons piece pieces ih =>
    obtain ⟨hpayloads, hall⟩ := ih fun body hbody => h body (mem_cons_of_mem piece hbody)
    cases piece with
    | event body =>
      have hfits : decide ((dataField ++ body.bytes).length < maxScanTokenSize) =
          (Piece.event body).fits := decide_eq_decide.mpr (Body.fits_iff (h body mem_cons_self))
      simp only [flatMap_cons, Piece.lines, cons_append, nil_append, takeWhile_cons, all_cons,
        hempty, hfits, hall, Bool.true_and, if_true]
      cases (Piece.event body).fits with
      | false => exact ⟨rfl, trivial⟩
      | true =>
        simp only [if_true, map_cons, filterMap_cons, linePayload_data, hblank, hpayloads,
          Piece.body?, polledPayload, and_self]
    | keepalive =>
      have hshort : decide ((SessionStream.bytes ":keepalive").length < maxScanTokenSize) =
          true := by decide
      have hnone : linePayload (dropCR (SessionStream.bytes ":keepalive")) = none := by decide
      simp only [flatMap_cons, Piece.lines, cons_append, nil_append, takeWhile_cons, all_cons,
        hempty, hshort, Piece.fits, hall, Bool.true_and, if_true, map_cons, filterMap_cons, hnone,
        hblank, hpayloads, Piece.body?, and_self]

/-- **Streaming gives what polling gives, up to the first body that is too long**, and nothing from
that one on. -/
theorem streamed_before_long {pieces : List Piece} (h : Lined pieces) :
    streamedPayloads (pieces.flatMap Piece.bytes) =
        ((pieces.takeWhile Piece.fits).filterMap Piece.body?).map polledPayload ∧
      ∀ openSDPs,
        waitSDPAnswersSSE openSDPs (pieces.flatMap Piece.bytes) =
            waitLoop openSDPs (!pieces.all Piece.fits)
              (((pieces.takeWhile Piece.fits).filterMap Piece.body?).map polledPayload) ∧
          streamSDPOffers openSDPs (pieces.flatMap Piece.bytes) =
            (((pieces.takeWhile Piece.fits).filterMap Piece.body?).map polledPayload).filterMap
              (delivered openSDPs) := by
  have hbytes : pieces.flatMap Piece.bytes =
      (pieces.flatMap Piece.lines).flatMap fun line => line ++ [newline] := by
    rw [flatMap_assoc]
    exact flatMap_congr fun piece _ => piece.bytes_eq
  have hlimit : 0 < maxScanTokenSize := by decide
  have hscan := scanLines_flatMap hlimit h.notMem_lines
  obtain ⟨hpayloads, hall⟩ := h.payloads
  have hstreamed : streamedPayloads (pieces.flatMap Piece.bytes) =
      ((pieces.takeWhile Piece.fits).filterMap Piece.body?).map polledPayload := by
    rw [streamedPayloads, scan, hbytes, hscan]
    exact hpayloads
  refine ⟨hstreamed, fun openSDPs => ⟨?_, ?_⟩⟩
  · rw [waitSDPAnswersSSE, hstreamed, scan, hbytes, hscan, hall]
  · rw [streamSDPOffers, hstreamed]

def compactBody : Body where
  bytes := bytes "\x7b\"sdp\":\"x\"\x7d"
  ne := by decide
  size := by decide
  valid := by decide +kernel

/-- Blanks before the object. -/
def paddedBody (n : Nat) (hn : n ≤ 65536) : Body where
  bytes := replicate n 32 ++ compactBody.bytes
  ne := append_ne_nil_of_right_ne_nil _ compactBody.ne
  size := by
    have hsize : compactBody.bytes.length ≤ 11 := by decide
    rw [length_append, length_replicate]
    omega
  valid := by
    have hrunes : Text.runes (replicate n 32 ++ compactBody.bytes) =
        replicate n ' ' ++ Text.runes compactBody.bytes := by
      clear hn
      induction n with
      | zero => rfl
      | succ n ih => exact congrArg (' ' :: ·) ih
    have hblank : Json.Blank (replicate n ' ') := fun c hc => by
      rw [eq_of_mem_replicate hc]
      decide
    obtain ⟨v, hv⟩ := Option.isSome_iff_exists.mp compactBody.valid
    obtain ⟨used, bs, hused, hconsumed, hbs⟩ := Json.consumed_of_parse hv
    rw [hrunes, hused, ← append_assoc, Json.parse_append_blank _ hbs,
      Json.parse_consumed (Json.consumed_blank hblank hconsumed)]
    rfl

theorem newline_notMem_paddedBody {n : Nat} (hn : n ≤ 65536) :
    newline ∉ (paddedBody n hn).bytes := by
  refine mt mem_append.mp (not_or_intro (fun h => ?_) (by decide))
  exact absurd (eq_of_mem_replicate h) (by decide)

theorem not_fits_paddedBody {n : Nat} (hn : n ≤ 65536) (hlong : 65536 ≤ n) :
    ¬ Piece.fits (.event (paddedBody n hn)) = true := by
  refine mt of_decide_eq_true fun hfits => ?_
  have hlength := (Body.fits_iff (newline_notMem_paddedBody hn)).mpr hfits
  have hmax : maxScanTokenSize = 65536 := rfl
  simp only [paddedBody, length_append, length_replicate] at hlength
  omega

theorem streamed_before_long_padded :
    streamedPayloads ([.keepalive, .event (paddedBody 1 (by decide)),
      .event (paddedBody 65536 (Nat.le_refl _)), .event compactBody].flatMap Piece.bytes) =
        [some "x"] := by
  have hlined : Lined [.keepalive, .event (paddedBody 1 (by decide)),
      .event (paddedBody 65536 (Nat.le_refl _)), .event compactBody] := by
    intro body hbody
    simp only [mem_cons, not_mem_nil, or_false, Piece.event.injEq, reduceCtorEq, false_or] at hbody
    rcases hbody with rfl | rfl | rfl
    · exact newline_notMem_paddedBody (n := 1) _
    · exact newline_notMem_paddedBody (n := 65536) _
    · decide
  have hpolled : polledPayload (paddedBody 1 (by decide)) = some "x" := by decide +kernel
  rw [(streamed_before_long hlined).1, takeWhile_cons_of_pos rfl, takeWhile_cons_of_pos (by decide),
    takeWhile_cons_of_neg (not_fits_paddedBody (n := 65536) _ (Nat.le_refl _))]
  show [polledPayload (paddedBody 1 _)] = _
  rw [hpolled]

end NatProxy.Signaling.SessionStream
