import NatProxy.App.HostAuth
import NatProxy.Lib.BlankLines
import NatProxy.Lib.JsonReader
import NatProxy.Signaling.DiscoveryHub

/-!
# The stream of the server lists

`handleDiscoveryStream` of the signal server (`signalserver/cmd/signalserver/main.go`) writes each
list of servers as an event, and keepalives between them. `DiscoveryStreamService`
(`lib/services/discovery_stream_service.dart`) gets the bytes in chunks. It decodes each chunk on
its own, appends the text to a buffer, parses what is complete up to a blank line and keeps the
rest. A chunk that `utf8.decode` throws on is lost.

`emitted_of_whole`: if each chunk is a text of its own and does not begin with a byte order mark,
the lists that were sent are emitted, wherever the chunks are cut. A chunk that ends inside a
character is lost, and so is the one after it (`decode_of_last`, `decode_of_first`, `accent_cut`).
-/

namespace NatProxy.App.DiscoveryStream

open List Lib NatProxy.Lib.Json Lib.BlankLines
open App.HostAuth (lookup)
open Signaling.DiscoveryHub (Listing)

abbrev Bytes := List UInt8

/-! ## The server -/

inductive ListingField where
  | id
  | name
  | room
  | code
  | method
  | transport
  | protocol
  | natMapping
  | natFiltering
  | updatedAt
deriving DecidableEq, Repr

namespace ListingField

def all : List ListingField :=
  [id, name, room, code, method, transport, protocol, natMapping, natFiltering, updatedAt]

def tag : ListingField → String
  | id => "id"
  | name => "name"
  | room => "room"
  | code => "code"
  | method => "method"
  | transport => "transport"
  | protocol => "protocol"
  | natMapping => "nat_mapping"
  | natFiltering => "nat_filtering"
  | updatedAt => "updated_at"

def omitempty : ListingField → Bool
  | natMapping | natFiltering => true
  | _ => false

end ListingField

/-- `listing`; a time is written as a string. -/
def listingSchema : Schema where
  Field := ListingField
  decEq := inferInstance
  fields := ListingField.all
  name := ListingField.tag
  kind := fun _ => .string
  omitempty := ListingField.omitempty
  mem_fields := by intro f; cases f <;> simp [ListingField.all]
  nodup_names := by decide

section Server

-- how a time is written
variable (formatTime : Nat → String)

def record (l : Listing) : listingSchema.Record
  | .id => l.id
  | .name => l.name
  | .room => l.room
  | .code => l.code
  | .method => l.method
  | .transport => l.transport
  | .protocol => l.protocol
  | .natMapping => l.natMapping
  | .natFiltering => l.natFiltering
  | .updatedAt => formatTime l.updatedAt

/-- `json.Marshal` of the list; `list` never returns a nil slice. -/
def marshalList (list : List Listing) : List Char :=
  printArray (list.map fun l => listingSchema.marshal (record formatTime l))

inductive Piece where
  | servers (list : List Listing)
  | keepalive

def Piece.lines : Piece → List (List Char)
  | .servers list => ["event: servers".toList, "data: ".toList ++ marshalList formatTime list]
  | .keepalive => [":keepalive".toList]

def Piece.text (piece : Piece) : List Char :=
  ['\n'].intercalate (piece.lines formatTime) ++ ['\n', '\n']

def stream (pieces : List Piece) : Bytes := Text.utf8Encode (pieces.flatMap (Piece.text formatTime))

end Server

/-! ## The listener -/

structure ServerListing where
  id : String
  name : String
  room : String
  code : String
  method : String
  transport : String
  protocol : String
deriving DecidableEq, Repr

/-- `json[name] as String? ?? ''`; none where the cast throws. -/
def textOf (json : List (List Char × Value)) (name : String) : Option String :=
  match lookup json name with
  | none => some ""
  | some (.scalar (.str s)) => some (String.ofList s)
  | some _ => none

def ServerListing.fromJson (json : List (List Char × Value)) : Option ServerListing := do
  let id ← textOf json "id"
  let name ← textOf json "name"
  let room ← textOf json "room"
  let code ← textOf json "code"
  let method ← textOf json "method"
  let transport ← textOf json "transport"
  let protocol ← textOf json "protocol"
  return { id, name, room, code, method, transport, protocol }

def fromItem : Value → Option ServerListing
  | .obj json => ServerListing.fromJson json
  | _ => none

def fromItems : List Value → Option (List ServerListing)
  | [] => some []
  | item :: items => (fromItem item).bind fun l => (fromItems items).map (l :: ·)

/-- `jsonDecode(jsonStr) as List<dynamic>` and its items. Escapes of lone surrogates are read as by
the server. -/
def decodeList (jsonStr : List Char) : Option (List ServerListing) :=
  match parse jsonStr with
  | some (.arr items) => fromItems items
  | _ => none

structure Event where
  eventType : Option (List Char) := none
  dataLines : List (List Char) := []

def trim (line : List Char) : List Char := Text.trim Text.isDartSpace line

def Event.readLine (e : Event) (line : List Char) : Event :=
  if line.take 1 = ":".toList then e
  else if line.take 6 = "event:".toList then { e with eventType := some (trim (line.drop 6)) }
  else if line.take 5 = "data:".toList then
    { e with dataLines := e.dataLines ++ [trim (line.drop 5)] }
  else e

def parseSSEEvent (raw : List Char) : Option (List ServerListing) :=
  let e := (raw.splitOn '\n').foldl Event.readLine {}
  if e.eventType = some "servers".toList ∧ e.dataLines ≠ [] then
    decodeList (['\n'].intercalate e.dataLines)
  else none

/-- `_processBuffer`: what stays in the buffer, and what is emitted. -/
def processBuffer (content : List Char) : List Char × List (List ServerListing) :=
  let parts := splitBlank content
  if parts.length < 2 then (content, [])
  else (parts.getLastD [], parts.dropLast.filterMap parseSSEEvent)

def byteOrderMark : Bytes := [0xef, 0xbb, 0xbf]

/-- `utf8.decode`, which drops a byte order mark in front; none where it throws. -/
def decode (chunk : Bytes) : Option (List Char) :=
  if chunk.take 3 = byteOrderMark then Text.utf8Decode (chunk.drop 3) else Text.utf8Decode chunk

def onData (buffer : List Char) (chunk : Bytes) : List Char × List (List ServerListing) :=
  match decode chunk with
  | none => (buffer, [])
  | some text => processBuffer (buffer ++ text)

def listen (buffer : List Char) : List Bytes → List (List ServerListing)
  | [] => []
  | chunk :: chunks => (onData buffer chunk).2 ++ listen (onData buffer chunk).1 chunks

/-! ## One event -/

section Listings

variable {formatTime : Nat → String}

def shown (l : Listing) : ServerListing where
  id := l.id
  name := l.name
  room := l.room
  code := l.code
  method := l.method
  transport := l.transport
  protocol := l.protocol

theorem textOf_members (r : listingSchema.Record) {f : ListingField} (hf : f.omitempty = false) :
    textOf (values (listingSchema.members r (listingSchema.fields.filter (listingSchema.writes r))))
      f.tag = some (r f) := by
  have hwritten : f ∈ listingSchema.fields.filter (listingSchema.writes r) := by
    refine mem_filter.mpr ⟨listingSchema.mem_fields f, ?_⟩
    exact congrArg (fun omitted => !(omitted && _)) hf
  have hfind := listingSchema.find?_members r hwritten
  have hlookup : lookup (values (listingSchema.members r
      (listingSchema.fields.filter (listingSchema.writes r)))) f.tag =
        some (.scalar (.str (r f).toList)) := by
    rw [HostAuth.lookup]
    exact hfind ▸ rfl
  rw [textOf, hlookup]
  exact congrArg some String.ofList_toList

theorem fromItem_members (l : Listing) :
    fromItem (.obj (values (listingSchema.members (record formatTime l)
      (listingSchema.fields.filter (listingSchema.writes (record formatTime l)))))) =
        some (shown l) := by
  have htext {f : ListingField} := @textOf_members (record formatTime l) f
  have hid := htext (f := .id) rfl
  have hname := htext (f := .name) rfl
  have hroom := htext (f := .room) rfl
  have hcode := htext (f := .code) rfl
  have hmethod := htext (f := .method) rfl
  have htransport := htext (f := .transport) rfl
  have hprotocol := htext (f := .protocol) rfl
  simp only [ListingField.tag] at hid hname hroom hcode hmethod htransport hprotocol
  simp only [fromItem, ServerListing.fromJson, hid, hname, hroom, hcode, hmethod, htransport,
    hprotocol]
  rfl

theorem fromItems_members (list : List Listing) :
    fromItems (list.map fun l => .obj (values (listingSchema.members (record formatTime l)
      (listingSchema.fields.filter (listingSchema.writes (record formatTime l)))))) =
        some (list.map shown) := by
  induction list with
  | nil => rfl
  | cons l list ih =>
    rw [map_cons, fromItems, fromItem_members, ih]
    rfl

theorem decodeList_marshalList (list : List Listing) :
    decodeList (marshalList formatTime list) = some (list.map shown) := by
  have hreads : ∀ item ∈ list.map fun l => (listingSchema.marshal (record formatTime l),
      Value.obj (values (listingSchema.members (record formatTime l)
        (listingSchema.fields.filter (listingSchema.writes (record formatTime l)))))),
      Consumed parseValue item.2 item.1 := by
    intro item hitem
    obtain ⟨l, -, rfl⟩ := mem_map.mp hitem
    exact consumed_printObject (listingSchema.wf_members _ _)
  have hparse := parse_printArray hreads
  rw [map_map, map_map] at hparse
  have hwhole : parse (marshalList formatTime list) = _ := hparse
  rw [decodeList, hwhole]
  exact fromItems_members list

theorem newline_notMem_marshalList (list : List Listing) :
    '\n' ∉ marshalList formatTime list := by
  apply newline_notMem_printArray
  intro text htext
  obtain ⟨l, -, rfl⟩ := mem_map.mp htext
  exact newline_notMem_printObject (listingSchema.wf_members _ _)

theorem trim_marshalList (list : List Listing) :
    trim (' ' :: marshalList formatTime list) = marshalList formatTime list :=
  Text.trim_append (c := '[') (d := ']') rfl rfl [' '] _

def Piece.sent : Piece → Option (List ServerListing)
  | .servers list => some (list.map shown)
  | .keepalive => none

theorem newline_notMem_lines (piece : Piece) : ∀ line ∈ piece.lines formatTime, '\n' ∉ line := by
  intro line hline
  cases piece with
  | servers list =>
    rcases mem_cons.mp hline with rfl | hline
    · simp
    · rw [mem_singleton.mp hline]
      simp [newline_notMem_marshalList]
  | keepalive =>
    rw [mem_singleton.mp hline]
    simp

theorem parseSSEEvent_lines (piece : Piece) :
    parseSSEEvent (['\n'].intercalate (piece.lines formatTime)) = piece.sent := by
  have hsplit : (['\n'].intercalate (piece.lines formatTime)).splitOn '\n' =
      piece.lines formatTime := by
    apply splitOn_intercalate
    · exact newline_notMem_lines piece
    · cases piece <;> exact cons_ne_nil _ _
  rw [parseSSEEvent, hsplit]
  cases piece with
  | servers list =>
    have hdata : Event.readLine { eventType := some "servers".toList }
        ("data: ".toList ++ marshalList formatTime list) =
          { eventType := some "servers".toList, dataLines := [marshalList formatTime list] } := by
      rw [Event.readLine, if_neg (by simp), if_neg (by simp), if_pos (by simp)]
      exact congrArg (fun line => Event.mk _ [line]) (trim_marshalList list)
    have hread : (Piece.lines formatTime (.servers list)).foldl Event.readLine {} = _ := hdata
    simp only [hread]
    rw [if_pos ⟨trivial, cons_ne_nil _ _⟩, intercalate_singleton]
    exact decodeList_marshalList list
  | keepalive => rfl

/-! ## The buffer -/

theorem splitBlank_text (piece : Piece) (rest : List Char) :
    splitBlank (piece.text formatTime ++ rest) =
      ['\n'].intercalate (piece.lines formatTime) :: splitBlank rest := by
  cases piece with
  | servers list =>
    have hevent : '\n' ∉ "event: servers".toList := by simp
    have hdata : '\n' ∉ "data: ".toList ++ marshalList formatTime list := by
      simp [newline_notMem_marshalList]
    have htext : (Piece.servers list).text formatTime ++ rest = "event: servers".toList ++
        '\n' :: (("data: ".toList ++ marshalList formatTime list) ++ '\n' :: '\n' :: rest) := by
      simp [Piece.text, Piece.lines]
    rw [htext, splitBlank_line hevent, splitBlank_newline (by simp) hdata]
    simp [Piece.lines, splitBlank, onFirst]
  | keepalive =>
    have hline : '\n' ∉ ":keepalive".toList := by simp
    have htext : Piece.keepalive.text formatTime ++ rest =
        ":keepalive".toList ++ '\n' :: '\n' :: rest := by
      simp [Piece.text, Piece.lines]
    rw [htext, splitBlank_line hline]
    simp [Piece.lines, splitBlank, onFirst]

theorem splitBlank_stream (pieces : List Piece) :
    splitBlank (pieces.flatMap (Piece.text formatTime)) =
      pieces.map (fun piece => ['\n'].intercalate (piece.lines formatTime)) ++ [[]] := by
  induction pieces with
  | nil => rfl
  | cons piece pieces ih =>
    rw [flatMap_cons, splitBlank_text, ih]
    rfl

end Listings

theorem processBuffer_eq {content tail : List Char} {parts : List (List Char)}
    (h : splitBlank content = parts ++ [tail]) :
    processBuffer content = (tail, parts.filterMap parseSSEEvent) := by
  rw [processBuffer, h]
  cases parts with
  | nil =>
    -- nothing is complete: the buffer is left as it is
    rw [eq_of_splitBlank h]
    rfl
  | cons part parts =>
    grind

variable {chunks : List Bytes}

/-- **The cuts do not matter** once each chunk is decoded. -/
theorem listen_eq {buffer : List Char} (hbuffer : splitBlank buffer = [buffer])
    {texts : List (List Char)} (h : chunks.map decode = texts.map some) : listen buffer chunks =
      (splitBlank (buffer ++ texts.flatten)).dropLast.filterMap parseSSEEvent := by
  induction chunks generalizing buffer texts with
  | nil =>
    rw [map_eq_nil_iff.mp h.symm, flatten_nil, append_nil, hbuffer]
    rfl
  | cons chunk chunks ih =>
    obtain ⟨text, texts, rfl⟩ : ∃ text rest, texts = text :: rest := by
      cases texts with
      | nil => cases h
      | cons text texts => exact ⟨text, texts, rfl⟩
    obtain ⟨hdecode, hrest⟩ := cons.inj h
    obtain ⟨parts, tail, hsplit⟩ : ∃ parts tail, splitBlank (buffer ++ text) = parts ++ [tail] :=
      ⟨_, _, (dropLast_append_getLast (splitBlank_ne _)).symm⟩
    have hstep : onData buffer chunk = (tail, parts.filterMap parseSSEEvent) := by
      rw [onData, hdecode]
      exact processBuffer_eq hsplit
    -- splitting once more finds no new part
    have htail : splitBlank tail = [tail] := by
      have hagain := splitBlank_append hsplit []
      rw [append_nil, append_nil, hsplit] at hagain
      exact (append_cancel_left hagain).symm
    have hwhole := splitBlank_append hsplit texts.flatten
    rw [listen, hstep, ih htail hrest, flatten_cons, ← append_assoc, hwhole,
      dropLast_append_of_ne_nil (splitBlank_ne _), filterMap_append]

def sent (pieces : List Piece) : List (List ServerListing) := pieces.filterMap Piece.sent

theorem listen_pieces {formatTime : Nat → String} {pieces : List Piece} {texts : List (List Char)}
    (htexts : texts.flatten = pieces.flatMap (Piece.text formatTime))
    (h : chunks.map decode = texts.map some) : listen [] chunks = sent pieces := by
  have hparse : (parseSSEEvent ∘ fun piece : Piece =>
      ['\n'].intercalate (piece.lines formatTime)) = Piece.sent :=
    funext parseSSEEvent_lines
  rw [listen_eq rfl h, nil_append, htexts, splitBlank_stream, dropLast_concat,
    filterMap_map, hparse]
  rfl

/-! ## Chunks -/

/-- The chunk is a text of its own that does not begin with a byte order mark. -/
def Whole (chunk : Bytes) : Prop :=
  ∃ text, chunk = Text.utf8Encode text ∧ text.head? ≠ some '\ufeff'

theorem decode_utf8Encode {text : List Char} (h : text.head? ≠ some '\ufeff') :
    decode (Text.utf8Encode text) = some text := by
  have hmark : (Text.utf8Encode text).take 3 ≠ byteOrderMark := by
    intro hmark
    cases text with
    | nil => cases hmark
    | cons c text => exact h (congrArg some (Text.eq_of_take_utf8Encode hmark))
  rw [decode, if_neg hmark, Text.utf8Decode_utf8Encode]

theorem exists_texts (h : ∀ chunk ∈ chunks, Whole chunk) :
    ∃ texts : List (List Char), chunks = texts.map Text.utf8Encode ∧
      chunks.map decode = texts.map some := by
  induction chunks with
  | nil => exact ⟨[], rfl, rfl⟩
  | cons chunk chunks ih =>
    obtain ⟨text, rfl, htext⟩ := h chunk mem_cons_self
    obtain ⟨texts, rfl, htexts⟩ := ih fun chunk' hmem => h chunk' (mem_cons_of_mem _ hmem)
    refine ⟨text :: texts, rfl, ?_⟩
    rw [map_cons, decode_utf8Encode htext, htexts]
    rfl

theorem head?_stream (formatTime : Nat → String) (pieces : List Piece) :
    (pieces.flatMap (Piece.text formatTime)).head? ≠ some '\ufeff' := by
  cases pieces with
  | nil => exact nofun
  | cons piece pieces => cases piece <;> exact fun h => absurd (Option.some.inj h) (by decide)

/-- **Whole characters in each chunk**: the lists that were sent are emitted. -/
theorem emitted_of_whole (formatTime : Nat → String) (pieces : List Piece) {chunks : List Bytes}
    (hcut : chunks.flatten = stream formatTime pieces) (hwhole : ∀ chunk ∈ chunks, Whole chunk) :
    listen [] chunks = sent pieces ∧ listen [] [stream formatTime pieces] = sent pieces := by
  constructor
  · obtain ⟨texts, rfl, hdecode⟩ := exists_texts hwhole
    rw [← Text.utf8Encode_flatten] at hcut
    exact listen_pieces (Text.utf8Encode_inj hcut) hdecode
  · have hone : [stream formatTime pieces].map decode =
        [pieces.flatMap (Piece.text formatTime)].map some := by
      rw [map_singleton, stream, decode_utf8Encode (head?_stream formatTime pieces)]
      rfl
    exact listen_pieces (by rw [flatten_singleton]) hone

def someTime (_ : Nat) : String := "2026-01-01T00:00:00Z"

def accented : Listing := { id := "a", name := "é", room := "r" }

def demoText : List Char := [Piece.keepalive, .servers [accented]].flatMap (Piece.text someTime)

theorem emitted_of_whole_accented :
    listen [] [Text.utf8Encode (demoText.take 11), Text.utf8Encode (demoText.drop 11)] =
      [[shown accented]] := by
  refine (emitted_of_whole someTime [.keepalive, .servers [accented]] ?_ ?_).1
  · show _ ++ (_ ++ []) = _
    rw [append_nil, ← Text.utf8Encode_append, take_append_drop]
    rfl
  · intro chunk hchunk
    rcases mem_cons.mp hchunk with rfl | hchunk
    · exact ⟨_, rfl, fun h => absurd (Option.some.inj h) (by decide)⟩
    · rw [mem_singleton.mp hchunk]
      exact ⟨_, rfl, fun h => absurd (Option.some.inj h) (by decide)⟩

/-! ## A cut inside a character -/

variable {chunk : Bytes}

theorem decode_eq_none (hmark : chunk.take 3 ≠ byteOrderMark)
    (h : ∀ text, chunk ≠ Text.utf8Encode text) : decode chunk = none := by
  rw [decode, if_neg hmark]
  cases hdecode : Text.utf8Decode chunk with
  | none => rfl
  | some text =>
    obtain ⟨text', htext⟩ := Text.eq_utf8Encode_of_utf8Decode hdecode
    exact absurd htext (h text')

theorem decode_of_last {b : UInt8} (hmark : chunk.take 3 ≠ byteOrderMark)
    (hlast : chunk.getLast? = some b) (hb : 0xc0 ≤ b.toNat) : decode chunk = none := by
  apply decode_eq_none hmark
  rintro text rfl
  have hlt := Text.last_utf8Encode hlast
  omega

theorem decode_of_first {b : UInt8} (hfirst : chunk.head? = some b)
    (hb : 0x80 ≤ b.toNat ∧ b.toNat < 0xc0) : decode chunk = none := by
  apply decode_eq_none
  · intro hmark
    have hhead := congrArg head? hmark
    rw [head?_take, if_neg (by decide), hfirst] at hhead
    have hval : b.toNat = 0xef := congrArg UInt8.toNat (Option.some.inj hhead)
    omega
  · rintro text rfl
    have hne := Text.first_utf8Encode hfirst
    omega

theorem listen_lost (h : decode chunk = none) (buffer : List Char)
    (chunks : List Bytes) : listen buffer (chunk :: chunks) = listen buffer chunks := by
  rw [listen, onData, h]
  rfl

/-- The stream of one list with an accented name, cut inside the accent. -/
def cutChunks : List Bytes :=
  [Text.utf8Encode "event: servers\ndata: [\x7b\"id\":\"a\",\"name\":\"".toList ++ [0xc3],
    0xa9 :: Text.utf8Encode ("\",\"room\":\"r\",\"code\":\"\",\"method\":\"\",\"transport\":" ++
      "\"\",\"protocol\":\"\",\"updated_at\":\"2026-01-01T00:00:00Z\"\x7d]\n\n").toList]

theorem accent_cut :
    cutChunks.flatten = stream someTime [.servers [accented]] ∧
      listen [] [stream someTime [.servers [accented]]] = [[shown accented]] ∧
      listen [] cutChunks = [] := by
  refine ⟨by decide +kernel, ?_, ?_⟩
  · have hone : [stream someTime [.servers [accented]]].map decode =
        [[Piece.servers [accented]].flatMap (Piece.text someTime)].map some :=
      congrArg (fun text => [text]) (decode_utf8Encode (head?_stream someTime _))
    exact listen_pieces (flatten_singleton) hone
  · have hfront {front : Bytes} (hmark : (front ++ [0xc3]).take 3 ≠ byteOrderMark) :
        decode (front ++ [0xc3]) = none :=
      decode_of_last hmark getLast?_concat (by decide)
    have hback {back : Bytes} : decode (0xa9 :: back) = none :=
      decode_of_first rfl (by decide)
    rw [cutChunks, listen_lost (hfront (by decide)), listen_lost hback]
    rfl

end NatProxy.App.DiscoveryStream
