import NatProxy.App.URLNormalize
import NatProxy.Lib.GoNet
import NatProxy.Lib.JsonReader
import NatProxy.Signaling.SessionStream

/-!
# The two signaling backends

A signaling URL is that of a signal server or, with the scheme `supabase`, names a project whose
table `rendezvous_sessions` holds the slots (`golib/signaling/supabase_rendezvous.go`). Each
function of `golib/signaling/signaling.go` decides by itself whether it looks at the scheme:
`PostSDPOffer` and `PostSDPAnswer` do, `getSDPInfo` does, and `PostSDPOffers`, `PostSDPAnswers`,
`getSDPInfoCtx` and the check of the URL in `StartServer` and `StartClient` (`golib/api.go`) do not.
An HTTP client has no transport for the scheme `supabase`.

A body is the JSON of a payload. What is done with the SDPs before they are a payload is a `Codec`:
`plainCodec` is the array in JSON; with a key it is sealed.

`behaves_iff`: of the URLs of the three schemes, those of `http` and `https` behave as they should
and those of `supabase` do not.
-/

namespace NatProxy.Signaling.Supabase

open Lib Lib.Json Function List
open Signaling.SessionStream (payloadSchema readPayload)

/-! ## URLs -/

def isSupabaseURL (signalingURL : List Char) : Bool :=
  "supabase://".toList.isPrefixOf signalingURL

inductive Slot where
  | offer
  | answer
deriving DecidableEq, Repr

def Slot.name : Slot → List Char
  | .offer => "offer".toList
  | .answer => "answer".toList

def slotURL (signalingURL sessionID : List Char) (slot : Slot) : List Char :=
  signalingURL ++ "/session/".toList ++ sessionID ++ '/' :: slot.name

def checkSignalingURL (signalingURL : List Char) :
    Except App.URLNormalize.NormalizeError (List Char) :=
  App.URLNormalize.normalizeHTTPBase signalingURL

/-! ## Payloads -/

def marshalPayload (payload : String) : List Char := payloadSchema.marshal fun _ => payload

theorem readPayload_marshalPayload (payload : String) :
    readPayload (marshalPayload payload) = some payload := by
  have hread := payloadSchema.unmarshal_marshal (show payloadSchema.Record from fun _ => payload)
  exact congrArg (Option.map fun record => (show String from record ())) hread

/-- How SDPs become a payload and are got back from it. -/
structure Codec where
  sealSDPs : List String → String
  openSDPs : String → Except String (List String)
  seal_ne : ∀ sdps, sealSDPs sdps ≠ ""
  open_seal : ∀ sdps, openSDPs (sealSDPs sdps) = .ok sdps

/-- `json.Marshal` of a `[]string`. -/
def marshalSDPs (sdps : List String) : String :=
  String.ofList (printArray (sdps.map fun sdp => printString sdp.toList))

def sdpItem : Value → Option String
  | .scalar (.str s) => some (String.ofList s)
  | .null => some ""
  | _ => none

/-- `json.Unmarshal` into a `[]string`, and what is done when it fails: the payload is taken as the
only SDP. -/
def unmarshalSDPs (raw : String) : List String :=
  match parse raw.toList with
  | some (.arr vs) => (vs.mapM sdpItem).getD [raw]
  | some .null => []
  | _ => [raw]

theorem mapM_sdpItem (sdps : List String) :
    (sdps.map fun sdp => Value.scalar (.str sdp.toList)).mapM sdpItem = some sdps := by
  induction sdps with
  | nil => rfl
  | cons sdp sdps ih =>
    rw [map_cons, mapM_cons, ih]
    show some (String.ofList sdp.toList :: sdps) = _
    rw [String.ofList_toList]

theorem unmarshalSDPs_marshalSDPs (sdps : List String) :
    unmarshalSDPs (marshalSDPs sdps) = sdps := by
  have hreads : ∀ item ∈ sdps.map fun sdp =>
      (printString sdp.toList, Value.scalar (.str sdp.toList)),
      Consumed parseValue item.2 item.1 := by
    intro item hitem
    obtain ⟨sdp, -, rfl⟩ := mem_map.mp hitem
    exact consumed_printScalar (v := .str sdp.toList) trivial
  have hparse := parse_printArray hreads
  rw [map_map, map_map] at hparse
  rw [unmarshalSDPs, marshalSDPs, String.toList_ofList]
  simp only [comp_def] at hparse
  rw [hparse]
  show ((sdps.map fun sdp => Value.scalar (.str sdp.toList)).mapM sdpItem).getD _ = _
  rw [mapM_sdpItem, Option.getD_some]

def plainCodec : Codec where
  sealSDPs := marshalSDPs
  openSDPs := fun raw => .ok (unmarshalSDPs raw)
  seal_ne := by
    intro sdps hempty
    have hlist := congrArg String.toList hempty
    rw [marshalSDPs, String.toList_ofList] at hlist
    exact absurd hlist (cons_ne_nil _ _)
  open_seal := fun sdps => congrArg Except.ok (unmarshalSDPs_marshalSDPs sdps)

/-! ## Posts -/

abbrev Key := List Char × List Char

structure World where
  sessions : Key → Option (List Char) := fun _ => none
  rows : Key → Option (List Char) := fun _ => none

def World.setSession (w : World) (key : Key) (body : List Char) : World :=
  { w with sessions := update w.sessions key (some body) }

def World.setRow (w : World) (key : Key) (body : List Char) : World :=
  { w with rows := update w.rows key (some body) }

inductive PostError where
  | unsupportedScheme
  | request
deriving DecidableEq, Repr

/-- `client.Post`; `arrives` tells whether the request gets through. -/
def clientPost (signalingURL : List Char) (w : World) (sessionID : List Char) (slot : Slot)
    (body : List Char) (arrives : Bool) : World × Option PostError :=
  if isSupabaseURL (slotURL signalingURL sessionID slot) then (w, some .unsupportedScheme)
  else if arrives then (w.setSession (sessionID, slot.name) body, none)
  else (w, some .request)

def supaUpsertSession (w : World) (sessionID : List Char) (slot : Slot) (body : List Char)
    (arrives : Bool) : World × Option PostError :=
  if arrives then (w.setRow (sessionID, slot.name) body, none)
  else (w, some .request)

inductive Post where
  /-- `PostSDPOffers` -/
  | offers (sdps : List String)
  /-- `PostSDPAnswers` and `PostSDPAnswersCtx`; no SDPs clear the slot -/
  | answers (sdps : Option (List String))
  /-- `PostSDPOffer` -/
  | offer (payload : String)
  /-- `PostSDPAnswer` -/
  | answer (payload : String)

def Post.slot : Post → Slot
  | .offers _ | .offer _ => .offer
  | .answers _ | .answer _ => .answer

structure Call where
  sessionID : List Char
  post : Post
  arrives : Bool

def Call.key (call : Call) : Key := (call.sessionID, call.post.slot.name)

section Calls

variable (codec : Codec) (signalingURL : List Char)

def Call.payload (call : Call) : String :=
  match call.post with
  | .offers sdps => codec.sealSDPs sdps
  | .answers none => ""
  | .answers (some sdps) => codec.sealSDPs sdps
  | .offer payload | .answer payload => payload

/-- Of the functions that post, the ones for a single SDP look at the scheme. -/
def Call.run (w : World) (call : Call) : World × Option PostError :=
  match call.post with
  | .offers _ | .answers _ =>
    clientPost signalingURL w call.sessionID call.post.slot (marshalPayload (call.payload codec))
      call.arrives
  | .offer _ | .answer _ =>
    if isSupabaseURL signalingURL then
      supaUpsertSession w call.sessionID call.post.slot (marshalPayload (call.payload codec))
        call.arrives
    else
      clientPost signalingURL w call.sessionID call.post.slot
        (marshalPayload (call.payload codec)) call.arrives

def runCalls (w : World) (calls : List Call) : World :=
  calls.foldl (fun w call => (call.run codec signalingURL w).1) w

end Calls

/-! ## Polls -/

inductive Seen where
  | failed
  | missing
  | stored (body : List Char)
deriving DecidableEq, Repr

inductive GetError where
  | notAvailable
  | timeout
  | parse
  | empty
deriving DecidableEq, Repr

/-- The loop of `getSDPInfo` and `getSDPInfoCtx` over the polls before the deadline. -/
def pollHTTP : List Seen → Except GetError String
  | [] => .error .notAvailable
  | .failed :: rest => pollHTTP rest
  | .missing :: rest => pollHTTP rest
  | .stored body :: rest =>
    match readPayload body with
    | none => .error .parse
    | some sdp => if sdp = "" then pollHTTP rest else .ok sdp

/-- `supaWaitSessionField`: the first body that is found. -/
def supaWaitSessionField : List Seen → Option (List Char)
  | [] => none
  | .failed :: rest => supaWaitSessionField rest
  | .missing :: rest => supaWaitSessionField rest
  | .stored body :: _ => some body

/-- What `getSDPInfo` makes of what it waited for. -/
def supaResult : Option (List Char) → Except GetError String
  | none => .error .timeout
  | some body =>
    match readPayload body with
    | none => .error .parse
    | some sdp => if sdp = "" then .error .empty else .ok sdp

/-- An HTTP client gets nothing from a URL with the scheme `supabase`. -/
def clientSeen (url : List Char) (polls : List Seen) : List Seen :=
  if isSupabaseURL url then polls.map fun _ => .failed else polls

/-- The session and the field of the URL of a slot. -/
def supabaseTarget (url : List Char) : Option Key :=
  let parts := (url.drop "supabase://".toList.length).splitOn '/'
  if 4 ≤ parts.length then
    some (parts.getD (parts.length - 2) [], parts.getD (parts.length - 1) [])
  else none

section Getters

-- what the polls of each slot find, wherever the backend of the URL keeps it
variable (signalingURL : List Char) (polls : Key → List Seen)

def getSDPInfo (sessionID : List Char) (slot : Slot) : Except GetError String :=
  let url := slotURL signalingURL sessionID slot
  match (if isSupabaseURL url then supabaseTarget url else none) with
  | some key => supaResult (supaWaitSessionField (polls key))
  | none => pollHTTP (clientSeen url (polls (sessionID, slot.name)))

def getSDPInfoCtx (sessionID : List Char) (slot : Slot) : Except GetError String :=
  pollHTTP (clientSeen (slotURL signalingURL sessionID slot) (polls (sessionID, slot.name)))

end Getters

inductive SDPsError where
  | get (err : GetError)
  | codec (err : String)
deriving DecidableEq, Repr

/-- `GetSDPOffers`, `GetSDPAnswers` and `GetSDPOffersCtx`, over what `getSDPInfo` or `getSDPInfoCtx`
returned. -/
def getSDPs (codec : Codec) : Except GetError String → Except SDPsError (List String)
  | .error err => .error (.get err)
  | .ok raw =>
    match codec.openSDPs raw with
    | .error err => .error (.codec err)
    | .ok sdps => .ok sdps

def World.seen (signalingURL : List Char) (w : World) (key : Key) : Seen :=
  match (if isSupabaseURL signalingURL then w.rows key else w.sessions key) with
  | none => .missing
  | some body => .stored body

/-! ## What a backend should do -/

structure SignalingURL where
  text : List Char
  url : GoURL.URL
  parsed : GoURL.parse GoNet.parseIPLiteral (Text.byteChars text) = .ok url
  scheme : url.scheme = "http".toList ∨ url.scheme = "https".toList ∨
    url.scheme = "supabase".toList
  host : url.host ≠ []
  authority : Text.contains "://".toList text = true
  trimmed : Text.trimSpace text = text
  resolved : Text.contains "[IP]".toList text = false

/-- The first payload that is not empty; what cannot be read ends the search. -/
def firstNonempty : List Seen → Option String
  | [] => none
  | .failed :: rest => firstNonempty rest
  | .missing :: rest => firstNonempty rest
  | .stored body :: rest =>
    match readPayload body with
    | none => none
    | some sdp => if sdp = "" then firstNonempty rest else some sdp

/-- After any posts, and however often it polls, a getter returns what was stored last in its slot,
or the first payload that is not empty. -/
structure Behaves (codec : Codec) (signalingURL : List Char) : Prop where
  accepted : ∃ base, checkSignalingURL signalingURL = .ok base
  stored : ∀ (before after : List Call) (sessionID : List Char) (post : Post)
    (sdps : List String) (n : Nat), post = .offers sdps ∨ post = .answers (some sdps) →
      (∀ call ∈ after, call.key ≠ (sessionID, post.slot.name)) →
      let w := runCalls codec signalingURL {} before
      let call : Call := ⟨sessionID, post, true⟩
      let w' := runCalls codec signalingURL (call.run codec signalingURL w).1 after
      let polls key := replicate (n + 1) (w'.seen signalingURL key)
      (call.run codec signalingURL w).2 = none ∧
        getSDPs codec (getSDPInfo signalingURL polls sessionID post.slot) = .ok sdps ∧
        getSDPs codec (getSDPInfoCtx signalingURL polls sessionID post.slot) = .ok sdps
  skips : ∀ (polls : Key → List Seen) (sessionID : List Char) (slot : Slot),
    (getSDPInfo signalingURL polls sessionID slot).toOption =
        firstNonempty (polls (sessionID, slot.name)) ∧
      (getSDPInfoCtx signalingURL polls sessionID slot).toOption =
        firstNonempty (polls (sessionID, slot.name))

/-! ## The signal server -/

theorem toOption_pollHTTP (polls : List Seen) :
    (pollHTTP polls).toOption = firstNonempty polls := by
  induction polls with
  | nil => rfl
  | cons seen polls ih =>
    cases seen with
    | failed | missing => exact ih
    | stored body =>
      rw [pollHTTP, firstNonempty]
      cases readPayload body with
      | none => rfl
      | some sdp =>
        by_cases hempty : sdp = ""
        · simp only [hempty, if_true]
          exact ih
        · simp only [hempty, if_false]
          rfl

section Server

variable {signalingURL : List Char}
  (hserver : ∀ sessionID slot, isSupabaseURL (slotURL signalingURL sessionID slot) = false)

include hserver

theorem getSDPInfo_server (polls : Key → List Seen) (sessionID : List Char) (slot : Slot) :
    getSDPInfo signalingURL polls sessionID slot = pollHTTP (polls (sessionID, slot.name)) := by
  rw [getSDPInfo, hserver]
  simp only [Bool.false_eq_true, if_false, clientSeen, hserver]

theorem getSDPInfoCtx_server (polls : Key → List Seen) (sessionID : List Char) (slot : Slot) :
    getSDPInfoCtx signalingURL polls sessionID slot = pollHTTP (polls (sessionID, slot.name)) := by
  rw [getSDPInfoCtx, clientSeen, hserver, if_neg Bool.false_ne_true]

theorem isSupabaseURL_server : isSupabaseURL signalingURL = false := by
  rw [← Bool.not_eq_true]
  intro hprefix
  have hslot : isSupabaseURL (slotURL signalingURL [] .offer) = true := by
    rw [isSupabaseURL, List.isPrefixOf_iff_prefix] at hprefix ⊢
    rw [slotURL, append_assoc, append_assoc]
    exact hprefix.trans (prefix_append _ _)
  rw [hserver] at hslot
  cases hslot

theorem run_server (codec : Codec) (w : World) (call : Call) :
    call.run codec signalingURL w =
      if call.arrives then
        (w.setSession call.key (marshalPayload (call.payload codec)), none)
      else (w, some .request) := by
  have hpost : clientPost signalingURL w call.sessionID call.post.slot
      (marshalPayload (call.payload codec)) call.arrives =
        if call.arrives then
          (w.setSession call.key (marshalPayload (call.payload codec)), none)
        else (w, some .request) := by
    rw [clientPost, hserver, if_neg Bool.false_ne_true]
    rfl
  rw [Call.run, isSupabaseURL_server hserver, if_neg Bool.false_ne_true]
  -- the four posts differ in the slot and the payload only
  split
  · exact hpost
  · exact hpost
  · exact hpost
  · exact hpost

theorem sessions_runCalls (codec : Codec) {key : Key} {calls : List Call} (w : World)
    (hother : ∀ call ∈ calls, call.key ≠ key) :
    (runCalls codec signalingURL w calls).sessions key = w.sessions key := by
  induction calls generalizing w with
  | nil => rfl
  | cons call calls ih =>
    have hcall := hother call mem_cons_self
    have hrest := ih (call.run codec signalingURL w).1
      fun call' h => hother call' (mem_cons_of_mem call h)
    rw [runCalls, foldl_cons]
    refine hrest.trans ?_
    -- the first call wrote to another slot, if it arrived
    rw [run_server hserver]
    split
    · exact update_of_ne hcall.symm _ _
    · rfl

theorem stored_server (codec : Codec) (before after : List Call) (sessionID : List Char)
    (post : Post) (sdps : List String) (n : Nat)
    (hpost : post = .offers sdps ∨ post = .answers (some sdps))
    (hafter : ∀ call ∈ after, call.key ≠ (sessionID, post.slot.name)) :
    let w := runCalls codec signalingURL {} before
    let call : Call := ⟨sessionID, post, true⟩
    let w' := runCalls codec signalingURL (call.run codec signalingURL w).1 after
    let polls key := replicate (n + 1) (w'.seen signalingURL key)
    (call.run codec signalingURL w).2 = none ∧
      getSDPs codec (getSDPInfo signalingURL polls sessionID post.slot) = .ok sdps ∧
      getSDPs codec (getSDPInfoCtx signalingURL polls sessionID post.slot) = .ok sdps := by
  intro w call w' polls
  have hrun := run_server hserver codec w call
  rw [if_pos rfl] at hrun
  have hpayload : call.payload codec = codec.sealSDPs sdps := by
    rcases hpost with rfl | rfl
    · rfl
    · rfl
  have hslot : w'.sessions (sessionID, post.slot.name) =
      some (marshalPayload (codec.sealSDPs sdps)) := by
    rw [sessions_runCalls hserver codec _ hafter, hrun, ← hpayload]
    exact update_self _ _ _
  have hseen : w'.seen signalingURL (sessionID, post.slot.name) =
      .stored (marshalPayload (codec.sealSDPs sdps)) := by
    rw [World.seen, isSupabaseURL_server hserver, if_neg Bool.false_ne_true, hslot]
  -- the first poll sees the body, and a sealed list is never empty
  have hpoll : pollHTTP (polls (sessionID, post.slot.name)) = .ok (codec.sealSDPs sdps) := by
    show pollHTTP (replicate (n + 1) (w'.seen signalingURL _)) = _
    rw [hseen, replicate_succ, pollHTTP, readPayload_marshalPayload]
    simp only [codec.seal_ne sdps, if_false]
  have hopen : getSDPs codec (.ok (codec.sealSDPs sdps)) = .ok sdps := by
    rw [getSDPs, codec.open_seal]
  refine ⟨congrArg Prod.snd hrun, ?_, ?_⟩
  · rw [getSDPInfo_server hserver, hpoll, hopen]
  · rw [getSDPInfoCtx_server hserver, hpoll, hopen]

end Server

/-! ## The schemes -/

namespace SignalingURL

variable (base : SignalingURL)

theorem withScheme_text : App.URLNormalize.withScheme base.text = base.text := by
  have hslashes : ¬ "//".toList <+: base.text := by
    rintro ⟨rest, hrest⟩
    have hne : base.url.scheme ≠ [] := by
      rcases base.scheme with h | h | h <;> rw [h] <;> decide
    -- a text with a scheme begins with its first letter
    have hhead := GoURL.head_of_parse base.parsed hne base.host
    rw [← hrest, show "//".toList ++ rest = '/' :: '/' :: rest from rfl,
      Text.head?_byteChars (by decide)] at hhead
    rcases base.scheme with h | h | h <;> rw [h] at hhead <;> exact absurd hhead (by decide)
  rw [App.URLNormalize.withScheme, if_neg hslashes, base.authority, if_pos rfl]

theorem text_ne : base.text ≠ [] := by
  intro hempty
  have hauthority := base.authority
  rw [hempty] at hauthority
  exact absurd hauthority (by decide)

theorem checkSignalingURL_text :
    (∃ out, checkSignalingURL base.text = .ok out) ↔ base.url.scheme ≠ "supabase".toList := by
  rw [checkSignalingURL, App.URLNormalize.normalizeHTTPBase]
  simp only [base.trimmed, base.text_ne, if_false, base.resolved, Bool.false_eq_true,
    App.URLNormalize.goURL, base.withScheme_text, base.parsed, base.host]
  rcases base.scheme with h | h | h
  · simp [h]
  · simp [h]
  · simp [h]

theorem isSupabaseURL_slotURL (hscheme : base.url.scheme ≠ "supabase".toList)
    (sessionID : List Char) (slot : Slot) :
    isSupabaseURL (slotURL base.text sessionID slot) = false := by
  -- of the two schemes that are left both begin with `h`
  have hhead : base.url.scheme.head? = some 'h' := by
    rcases base.scheme with h | h | h
    · rw [h]
      rfl
    · rw [h]
      rfl
    · exact absurd h hscheme
  have hne : base.url.scheme ≠ [] := by
    intro hempty
    rw [hempty] at hhead
    cases hhead
  rw [← Bool.not_eq_true]
  intro hprefix
  rw [isSupabaseURL, List.isPrefixOf_iff_prefix] at hprefix
  obtain ⟨c, cs, htext⟩ := exists_cons_of_ne_nil base.text_ne
  have hc : 's' = c := by
    rw [slotURL, htext] at hprefix
    exact (cons_prefix_cons.mp hprefix).1
  have hparsed := GoURL.head_of_parse base.parsed hne base.host
  rw [hhead, htext, ← hc, Text.head?_byteChars (by decide)] at hparsed
  exact absurd hparsed (by decide)

end SignalingURL

/-- **Which backends behave**: those of `http` and `https`, and none of `supabase`. -/
theorem behaves_iff (codec : Codec) (base : SignalingURL) :
    Behaves codec base.text ↔ base.url.scheme ≠ "supabase".toList := by
  constructor
  · intro h
    exact base.checkSignalingURL_text.mp h.accepted
  · intro hscheme
    have hserver := base.isSupabaseURL_slotURL hscheme
    refine ⟨base.checkSignalingURL_text.mpr hscheme, ?_, ?_⟩
    · exact stored_server hserver codec
    · intro polls sessionID slot
      rw [getSDPInfo_server hserver, getSDPInfoCtx_server hserver, toOption_pollHTTP]
      exact ⟨rfl, rfl⟩

def serverURL : SignalingURL where
  text := "http://a:1".toList
  url := { scheme := "http".toList, host := "a:1".toList }
  parsed := by decide +kernel
  scheme := .inl rfl
  host := by decide
  authority := by decide
  trimmed := by decide
  resolved := by decide

def projectURL : SignalingURL where
  text := "supabase://ref".toList
  url := { scheme := "supabase".toList, host := "ref".toList }
  parsed := by decide +kernel
  scheme := .inr (.inr rfl)
  host := by decide
  authority := by decide
  trimmed := by decide
  resolved := by decide

theorem behaves_server : Behaves plainCodec serverURL.text :=
  (behaves_iff plainCodec serverURL).mpr (by decide)

/-- The check rejects the URL of a project; `PostSDPOffers` fails; `getSDPInfo` fails at a cleared
slot; and `getSDPInfoCtx` does not see what is stored. -/
theorem project_misbehaves :
    checkSignalingURL projectURL.text = .error (.unsupportedScheme "supabase".toList) ∧
      (Call.run plainCodec projectURL.text {} ⟨"s".toList, .offers ["x"], true⟩).2 =
        some .unsupportedScheme ∧
      getSDPInfo projectURL.text
        (fun _ => [.stored (marshalPayload ""), .stored (marshalPayload "x")]) "s".toList .answer =
          .error .empty ∧
      getSDPInfo serverURL.text
        (fun _ => [.stored (marshalPayload ""), .stored (marshalPayload "x")]) "s".toList .answer =
          .ok "x" ∧
      getSDPInfoCtx projectURL.text (fun _ => [.stored (marshalPayload "x")]) "s".toList .offer =
        .error .notAvailable := by
  refine ⟨?_, ?_, ?_, ?_, ?_⟩ <;> decide +kernel

end NatProxy.Signaling.Supabase
