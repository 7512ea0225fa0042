import NatProxy.Lib.BigEndian
import NatProxy.Lib.CRLFLines
import NatProxy.Lib.GoIP
import NatProxy.Lib.GoNet
import NatProxy.Lib.TextParts
import NatProxy.NatTraversal.STUN
import Mathlib.Tactic.SplitIfs

/-!
# The candidates of an SDP

Model of `golib/webrtc/ice_filter.go` and of the injection of candidates in `golib/webrtc/peer.go`.
Before an SDP is handed out, a line for the public address and one for the relay are put in front of
the first `a=end-of-candidates`, found as a substring, and the candidate lines with a bogon address
are dropped.

`expected` says what should come out. `isBogonIPLocal` takes any text that is no IP literal for a
bogon one, so a relay with a host name is dropped again, like every candidate with a name instead of
an address. `candidates_iff`: without such names, and only then, the lines are the expected ones.
-/

namespace NatProxy.WebRTC.ICEFilter

open Lib Lib.CRLFLines Lib.GoNet Lib.Text Lib.TextParts List NatTraversal

/-! ## The value of an IP literal -/

def ipv4Bytes (s : List Char) : Bytes :=
  (s.splitOn '.').map fun digits => UInt8.ofNat (Nat.ofDigitChars 10 digits 0)

/-- A group of hexadecimal digits, or an IPv4 address in the place of the last two. -/
def groupBytes (s : List Char) : Bytes :=
  if '.' ∈ s then ipv4Bytes s
  else putUint16 (UInt16.ofNat (s.foldl (fun v c => v * 16 + (hexValue c).getD 0) 0))

def groupsBytes (s : List Char) : Bytes :=
  if s = [] then [] else (s.splitOn ':').flatMap groupBytes

/-- An ellipsis stands for the zero bytes that are missing. -/
def ipv6Bytes (s : List Char) : Bytes :=
  match index "::".toList s with
  | some (front, rest) =>
    let front := groupsBytes front
    let back := groupsBytes (rest.drop 2)
    front ++ replicate (16 - front.length - back.length) 0 ++ back
  | none => groupsBytes s

/-- An IPv4 address may be written in the form that is mapped into IPv6. -/
def ofBytes (ip : Bytes) : STUN.IP :=
  if ip.take 12 = GoIP.mappedPrefix then .v4 (.ofNat 32 (getNat (ip.drop 12)))
  else .v6 (.ofNat 128 (getNat ip))

/-- `net.ParseIP` with its value, for the texts that `parseIP` accepts. -/
def parseIPValue (s : List Char) : Option STUN.IP :=
  match parseAddr s with
  | some .v4 => some (ofBytes (GoIP.mappedPrefix ++ ipv4Bytes s))
  | some (.v6 []) => some (ofBytes (ipv6Bytes s))
  | _ => none

theorem isSome_parseIPValue (s : List Char) : (parseIPValue s).isSome = parseIP s := by
  rw [parseIPValue, parseIP]
  cases parseAddr s with
  | none => rfl
  | some addr =>
    cases addr with
    | v4 => rfl
    | v6 zone =>
      cases zone with
      | nil | cons c zone => rfl

/-! ## The filter -/

/-- What cannot be parsed is a bogon. The ranges are those of `isBogonIP` in `golib/nat`. -/
def isBogonIPLocal (ip : List Char) : Bool :=
  match parseIPValue ip with
  | none => true
  | some ip => STUN.isBogonIP ip

def extractCandidateIP (line : List Char) : List Char :=
  let parts := fields isSpace line
  if parts.length < 6 then [] else parts.getD 4 []

def candidateTag : List Char := "a=candidate:".toList

/-- The line is no candidate with an address that `bogon` rejects. -/
def keeps (bogon : List Char → Bool) (line : List Char) : Bool :=
  !(candidateTag.isPrefixOf line && extractCandidateIP line != [] &&
    bogon (extractCandidateIP line))

def filterBogonCandidates (sdp : List Char) : List Char :=
  joinLines ((splitLines sdp).filter (keeps isBogonIPLocal))

/-! ## The injected lines -/

def endOfCandidates : List Char := "a=end-of-candidates".toList

def inject (sdp line : List Char) : List Char :=
  match index endOfCandidates sdp with
  | some (before, rest) => before ++ (line ++ crlf) ++ rest
  | none => sdp ++ (line ++ crlf)

def candidateLine (front ip : List Char) (port : Int) (typ : List Char) (localPort : Int) :
    List Char :=
  front ++ ' ' :: (ip ++ ' ' :: (itoa port ++ ' ' :: (typ ++ ' ' ::
    ("raddr 0.0.0.0 rport ".toList ++ itoa localPort))))

inductive Kind where
  | srflx
  | relay

def Kind.line (ip : List Char) (port localPort : Int) : Kind → List Char
  | .srflx => candidateLine "a=candidate:obfs1 1 udp 1694498815".toList ip port
      "typ srflx".toList localPort
  | .relay => candidateLine "a=candidate:relay1 1 udp 16777215".toList ip port
      "typ relay".toList localPort

def injectSrflxCandidate (sdp publicIP : List Char) (publicPort localPort : Int) : List Char :=
  if publicIP = [] ∨ publicPort = 0 then sdp
  else inject sdp (Kind.srflx.line publicIP publicPort localPort)

def injectRelayCandidate (sdp relayAddr : List Char) (localPort : Int) : List Char :=
  if relayAddr = [] then sdp
  else
    match splitHostPort relayAddr with
    | .error _ => sdp
    | .ok (host, portStr) =>
      match atoi portStr with
      | none => sdp
      | some port => inject sdp (Kind.relay.line host port localPort)

/-- What `server.go` and `client.go` do with the local description. -/
def candidates (sdp publicIP : List Char) (publicPort : Int) (relayAddr : List Char)
    (localPort : Int) : List Char :=
  filterBogonCandidates (injectRelayCandidate
    (injectSrflxCandidate sdp publicIP publicPort localPort) relayAddr localPort)

/-! ## What should come out -/

/-- Lines that end in CRLF; the end of the candidates is a line of its own. -/
structure SDP where
  lines : List (List Char)
  isLine : ∀ line ∈ lines, IsLine line
  whole : ∀ line ∈ lines, endOfCandidates <:+: line → line = endOfCandidates

/-- A host name or an IP literal, and a port. -/
structure Endpoint where
  host : List Char
  port : Nat
  word : IsWord isSpace host
  brackets : ∀ c ∈ ['[', ']'], c ∉ host
  isInt : port < 9223372036854775808

/-- A public address that is known. -/
structure Public extends Endpoint where
  literal : parseIP host = true
  port_ne : port ≠ 0

def Endpoint.addr (e : Endpoint) : List Char := joinHostPort e.host (itoa e.port)

def isBogonLiteral (s : List Char) : Bool := (parseIPValue s).any STUN.isBogonIP

/-- What is injected. -/
def injected (pub : Option Public) (relay : Option Endpoint) : List (Kind × Endpoint) :=
  pub.toList.map (fun e => (.srflx, e.toEndpoint)) ++ relay.toList.map fun e => (.relay, e)

def linesOf (localPort : Nat) (new : List (Kind × Endpoint)) : List (List Char) :=
  new.map fun (kind, e) => kind.line e.host e.port localPort

/-- The new lines come before the first end of the candidates, or else at the end. -/
def insertLines (new : List (List Char)) : List (List Char) → List (List Char)
  | [] => new
  | line :: lines =>
    if line = endOfCandidates then new ++ line :: lines else line :: insertLines new lines

/-- Neither the lines of the SDP nor the new ones have a bogon IP literal. -/
def expected (sdp : SDP) (pub : Option Public) (relay : Option Endpoint) (localPort : Nat) :
    List (List Char) :=
  insertLines (linesOf localPort ((injected pub relay).filter fun e => !isBogonLiteral e.2.host))
    (sdp.lines.filter (keeps isBogonLiteral))

/-- A candidate with six fields has an IP literal. -/
def HasLiteral (line : List Char) : Prop :=
  candidateTag.isPrefixOf line = true → extractCandidateIP line ≠ [] →
    parseIP (extractCandidateIP line) = true

/-! ## The lines of a text -/

section

variable {line : List Char} {new lines : List (List Char)}

theorem inject_line (h : ¬ endOfCandidates <:+: line) (rest new : List Char) :
    inject (line ++ crlf ++ rest) new = line ++ crlf ++ inject rest new := by
  rw [inject, index_line (forall_mem_of_all (by decide)) h, inject]
  cases index endOfCandidates rest with
  | none | some found => simp

theorem insertLines_cons (h : line ≠ endOfCandidates) (new lines : List (List Char)) :
    insertLines new (line :: lines) = line :: insertLines new lines := if_neg h

theorem insertLines_end (new lines : List (List Char)) :
    insertLines new (endOfCandidates :: lines) = new ++ endOfCandidates :: lines := if_pos rfl

theorem inject_text (h : ∀ l ∈ lines, endOfCandidates <:+: l → l = endOfCandidates)
    (line : List Char) : inject (text lines) line = text (insertLines [line] lines) := by
  induction lines with
  | nil =>
    rw [inject, show index endOfCandidates (text []) = none from rfl]
    exact (append_nil _).symm
  | cons l lines ih =>
    have htext : ∀ ls, text (l :: ls) = l ++ crlf ++ text ls := fun _ => flatMap_cons
    by_cases hl : l = endOfCandidates
    · rw [htext, inject, hl, append_assoc, index_self (by decide), insertLines_end]
      simp [text]
    · have hno : ¬ endOfCandidates <:+: l := fun hin => hl (h l mem_cons_self hin)
      rw [htext, inject_line hno, ih fun m hm => h m (mem_cons_of_mem l hm),
        insertLines_cons hl, htext]

theorem insertLines_append {first : List (List Char)} (h : endOfCandidates ∉ first)
    (new lines : List (List Char)) :
    insertLines new (first ++ lines) = first ++ insertLines new lines := by
  induction first with
  | nil => rfl
  | cons l first ih =>
    have hl : l ≠ endOfCandidates := fun heq => h (heq ▸ mem_cons_self)
    rw [cons_append, insertLines_cons hl, ih fun hin => h (mem_cons_of_mem l hin)]
    rfl

theorem insertLines_insertLines {first : List (List Char)} (h : endOfCandidates ∉ first)
    (second lines : List (List Char)) :
    insertLines second (insertLines first lines) = insertLines (first ++ second) lines := by
  induction lines with
  | nil =>
    have hend := insertLines_append h second []
    rw [append_nil] at hend
    exact hend
  | cons l lines ih =>
    by_cases hl : l = endOfCandidates
    · subst hl
      rw [insertLines_end, insertLines_append h, insertLines_end, insertLines_end, append_assoc]
    · rw [insertLines_cons hl, insertLines_cons hl, insertLines_cons hl, ih]

theorem filter_insertLines {k : List Char → Bool} (h : k endOfCandidates = true)
    (new lines : List (List Char)) :
    (insertLines new lines).filter k = insertLines (new.filter k) (lines.filter k) := by
  induction lines with
  | nil => rfl
  | cons l lines ih =>
    by_cases hl : l = endOfCandidates
    · subst hl
      rw [insertLines_end, filter_append, filter_cons_of_pos h, insertLines_end]
    · rw [insertLines_cons hl, filter_cons, filter_cons, ih]
      split_ifs
      · rw [insertLines_cons hl]
      · rfl

theorem mem_insertLines : line ∈ insertLines new lines ↔ line ∈ new ∨ line ∈ lines := by
  induction lines with
  | nil => simp [insertLines]
  | cons l lines ih =>
    rw [insertLines]
    split_ifs
    · rw [mem_append]
    · rw [mem_cons, ih, mem_cons, or_left_comm]

end

/-! ## What the filter keeps -/

section

variable {line front ip typ : List Char}

theorem isBogonIPLocal_eq (ip : List Char) :
    isBogonIPLocal ip = (!parseIP ip || isBogonLiteral ip) := by
  rw [isBogonIPLocal, isBogonLiteral, ← isSome_parseIPValue]
  cases parseIPValue ip with
  | none | some value => rfl

/-- A line is dropped by mistake exactly if it has no literal. -/
theorem hasLiteral_iff : HasLiteral line ↔
    (keeps isBogonLiteral line = true → keeps isBogonIPLocal line = true) := by
  rw [HasLiteral, keeps, keeps, isBogonIPLocal_eq]
  by_cases hparse : parseIP (extractCandidateIP line) = true
  · simp [hparse]
  · have hnone : parseIPValue (extractCandidateIP line) = none := by
      rw [← Option.not_isSome_iff_eq_none, isSome_parseIPValue]
      exact hparse
    cases candidateTag.isPrefixOf line with
    | true => simp [hparse, hnone, isBogonLiteral]
    | false => simp

theorem keeps_of_keeps (h : keeps isBogonIPLocal line = true) :
    keeps isBogonLiteral line = true := by
  rw [keeps, isBogonIPLocal_eq] at h
  rw [keeps]
  cases hbogon : isBogonLiteral (extractCandidateIP line) with
  | true => simpa [hbogon] using h
  | false => simp

theorem filter_keeps_iff {all : List (List Char)} :
    all.filter (keeps isBogonIPLocal) = all.filter (keeps isBogonLiteral) ↔
      ∀ line ∈ all, HasLiteral line := by
  constructor
  · intro heq line hline
    refine hasLiteral_iff.mpr fun hkept => ?_
    have hin := mem_filter.mpr ⟨hline, hkept⟩
    rw [← heq] at hin
    exact (mem_filter.mp hin).2
  · intro h
    refine filter_congr fun line hline => ?_
    exact Bool.eq_iff_iff.mpr ⟨keeps_of_keeps, hasLiteral_iff.mp (h line hline)⟩

theorem extractCandidateIP_candidateLine (hfront : (fields isSpace front).length = 4)
    (hip : IsWord isSpace ip) (htyp : 2 ≤ (fields isSpace typ).length) (port localPort : Int) :
    extractCandidateIP (candidateLine front ip port typ localPort) = ip := by
  rw [extractCandidateIP, candidateLine, fields_append_cons (by decide),
    fields_append_cons (by decide), fields_append_cons (by decide), fields_append_cons (by decide),
    hip.fields]
  have hlong : ∀ others : List (List Char), ¬ (fields isSpace front ++ ([ip] ++
      (fields isSpace (itoa port) ++ (fields isSpace typ ++ others)))).length < 6 := by
    intro others
    simp only [length_append, length_singleton]
    omega
  rw [if_neg (hlong _), getD_eq_getElem?_getD, getElem?_append_right (by omega), hfront]
  rfl

end

theorem filterBogonCandidates_filterBogonCandidates (sdp : List Char) :
    filterBogonCandidates (filterBogonCandidates sdp) = filterBogonCandidates sdp := by
  rw [filterBogonCandidates, filterBogonCandidates]
  generalize hkept : (splitLines sdp).filter (keeps isBogonIPLocal) = kept
  by_cases hnil : kept = []
  · subst hnil
    rfl
  · have hlines : ∀ line ∈ kept, IsLine line := by
      rw [← hkept]
      exact fun line hline => isLine_of_mem_splitLines line (mem_of_mem_filter hline)
    rw [splitLines_joinLines hlines hnil, ← hkept, filter_filter]
    simp only [Bool.and_self]

theorem filterBogonCandidates_text {lines : List (List Char)} (h : ∀ line ∈ lines, IsLine line) :
    filterBogonCandidates (text lines) = text (lines.filter (keeps isBogonIPLocal)) := by
  rw [filterBogonCandidates, splitLines_text h, filter_append]
  exact joinLines_concat_nil _

/-! ## The new lines -/

theorem extractCandidateIP_line (kind : Kind) (e : Endpoint) (localPort : Int) :
    extractCandidateIP (kind.line e.host e.port localPort) = e.host := by
  cases kind with
  | srflx | relay => exact extractCandidateIP_candidateLine (by decide) e.word (by decide) _ _

theorem isPrefixOf_line (kind : Kind) (e : Endpoint) (localPort : Int) :
    candidateTag.isPrefixOf (kind.line e.host e.port localPort) = true := by
  cases kind with
  | srflx | relay => rfl

theorem keeps_line (bogon : List Char → Bool) (kind : Kind) (e : Endpoint) (localPort : Int) :
    keeps bogon (kind.line e.host e.port localPort) = !bogon e.host := by
  rw [keeps, isPrefixOf_line, extractCandidateIP_line, bne_iff_ne.mpr e.word.ne]
  rfl

theorem notMem_line {c : Char} (hc : c ∈ ['-', '\r']) (kind : Kind) {e : Endpoint}
    (hhost : c ∉ e.host) (localPort : Nat) : c ∉ kind.line e.host e.port localPort := by
  have hitoa : ∀ n : Nat, c ∉ itoa n := by
    intro n hin
    have hdigit := all_eq_true.mp (all_isDigit_itoa n) c hin
    rw [forall_mem_eq_false (p := Char.isDigit) (by decide) c hc] at hdigit
    cases hdigit
  rcases mem_pair.mp hc with rfl | rfl
  all_goals
    cases kind with
    | srflx | relay => simp [Kind.line, candidateLine, hhost, hitoa]

theorem isLine_line (kind : Kind) (e : Endpoint) (localPort : Nat) :
    IsLine (kind.line e.host e.port localPort) :=
  isLine_of_notMem (notMem_line (by simp) kind
    (fun hin => Bool.noConfusion (e.word.chars '\r' hin)) localPort)

/-- The end of the candidates has a dash, and an IP literal has none. -/
theorem notMem_linesOf_public (pub : Option Public) (localPort : Nat) :
    ∀ line ∈ linesOf localPort (injected pub none), '-' ∉ line := by
  cases pub with
  | none => exact nofun
  | some e =>
    rintro line hline
    obtain rfl := mem_singleton.mp hline
    exact notMem_line (by simp) .srflx (notMem_of_parseIP e.literal (by decide)) localPort

theorem insertLines_nil (lines : List (List Char)) : insertLines [] lines = lines := by
  induction lines with
  | nil => rfl
  | cons l lines ih =>
    rw [insertLines, ih]
    exact ite_self _

section

variable {lines : List (List Char)} (pub : Option Public) (relay : Option Endpoint)
  (localPort : Nat)

theorem injectSrflxCandidate_text
    (h : ∀ l ∈ lines, endOfCandidates <:+: l → l = endOfCandidates) :
    injectSrflxCandidate (text lines) (pub.elim [] (·.host)) (pub.elim 0 (·.port)) localPort =
      text (insertLines (linesOf localPort (injected pub none)) lines) := by
  cases pub with
  | none => exact (congrArg text (insertLines_nil lines)).symm
  | some e =>
    have hno : ¬ (e.host = [] ∨ (e.port : Int) = 0) := by simp [e.word.ne, e.port_ne]
    exact (if_neg hno).trans (inject_text h _)

theorem injectRelayCandidate_text
    (h : ∀ l ∈ lines, endOfCandidates <:+: l → l = endOfCandidates) :
    injectRelayCandidate (text lines) (relay.elim [] Endpoint.addr) localPort =
      text (insertLines (linesOf localPort (injected none relay)) lines) := by
  cases relay with
  | none => exact (congrArg text (insertLines_nil lines)).symm
  | some e =>
    have hne : e.addr ≠ [] := by
      rw [Endpoint.addr, joinHostPort]
      split_ifs <;> simp
    rw [Option.elim_some, injectRelayCandidate, if_neg hne]
    simp only [Endpoint.addr, splitHostPort_joinHostPort e.brackets (itoa_out e.port),
      atoi_itoa e.isInt]
    exact inject_text h _

theorem isLine_insertLines (sdp : SDP) (new : List (Kind × Endpoint)) :
    ∀ line ∈ insertLines (linesOf localPort new) sdp.lines, IsLine line := by
  intro line hline
  rcases mem_insertLines.mp hline with hnew | hold
  · obtain ⟨⟨kind, e⟩, -, rfl⟩ := mem_map.mp hnew
    exact isLine_line kind e localPort
  · exact sdp.isLine line hold

theorem candidates_text (sdp : SDP) :
    candidates (text sdp.lines) (pub.elim [] (·.host)) (pub.elim 0 (·.port))
        (relay.elim [] Endpoint.addr) localPort =
      text ((insertLines (linesOf localPort (injected pub relay)) sdp.lines).filter
        (keeps isBogonIPLocal)) := by
  have hdash := notMem_linesOf_public pub localPort
  have hsplit : linesOf localPort (injected pub none) ++ linesOf localPort (injected none relay) =
      linesOf localPort (injected pub relay) := by simp [linesOf, injected]
  have hwhole : ∀ l ∈ insertLines (linesOf localPort (injected pub none)) sdp.lines,
      endOfCandidates <:+: l → l = endOfCandidates := by
    intro l hl hin
    rcases mem_insertLines.mp hl with hnew | hold
    · exact absurd (hin.subset (by decide)) (hdash l hnew)
    · exact sdp.whole l hold hin
  rw [candidates, injectSrflxCandidate_text pub localPort sdp.whole,
    injectRelayCandidate_text relay localPort hwhole,
    insertLines_insertLines fun hin => hdash _ hin (by decide), hsplit,
    filterBogonCandidates_text (isLine_insertLines localPort sdp _)]

theorem expected_eq (sdp : SDP) : expected sdp pub relay localPort =
    (insertLines (linesOf localPort (injected pub relay)) sdp.lines).filter
      (keeps isBogonLiteral) := by
  rw [filter_insertLines (by decide), expected, linesOf, linesOf, filter_map]
  apply congrArg (fun new => insertLines (map _ new) _)
  refine filter_congr fun e _ => ?_
  exact (keeps_line isBogonLiteral e.1 e.2 localPort).symm

theorem forall_hasLiteral_iff : (∀ line ∈ linesOf localPort (injected pub relay), HasLiteral line) ↔
    ∀ e ∈ relay, parseIP e.host = true := by
  have hline : ∀ (kind : Kind) (e : Endpoint), HasLiteral (kind.line e.host e.port localPort) ↔
      parseIP e.host = true := by
    intro kind e
    rw [HasLiteral, isPrefixOf_line, extractCandidateIP_line]
    exact ⟨fun h => h rfl e.word.ne, fun h _ _ => h⟩
  rw [linesOf, forall_mem_map]
  constructor
  · intro h e he
    apply (hline .relay e).mp
    exact h (.relay, e) (mem_append_right _ (mem_map_of_mem (Option.mem_toList.mpr he)))
  · rintro h ⟨kind, e⟩ hnew
    refine (hline kind e).mpr ?_
    rcases mem_append.mp hnew with hpub | hrelay
    · obtain ⟨e, -, heq⟩ := mem_map.mp hpub
      cases heq
      exact e.literal
    · obtain ⟨e, he, heq⟩ := mem_map.mp hrelay
      cases heq
      exact h e (Option.mem_toList.mp he)

/-- **When the new candidates come through**: those of the SDP with six fields and the relay are IP
literals. Filtering is idempotent. -/
theorem candidates_iff (sdp : SDP) :
    (∀ text, filterBogonCandidates (filterBogonCandidates text) = filterBogonCandidates text) ∧
      (candidates (text sdp.lines) (pub.elim [] (·.host)) (pub.elim 0 (·.port))
          (relay.elim [] Endpoint.addr) localPort = text (expected sdp pub relay localPort) ↔
        (∀ line ∈ sdp.lines, HasLiteral line) ∧ ∀ e ∈ relay, parseIP e.host = true) := by
  refine ⟨filterBogonCandidates_filterBogonCandidates, ?_⟩
  have hline := isLine_insertLines localPort sdp (injected pub relay)
  have hlists := Iff.intro
    (text_injective (fun line h => hline line (mem_of_mem_filter (p := keeps isBogonIPLocal) h))
      fun line h => hline line (mem_of_mem_filter (p := keeps isBogonLiteral) h))
    (congrArg text)
  rw [candidates_text, expected_eq, hlists, filter_keeps_iff]
  simp only [mem_insertLines, or_imp, forall_and, forall_hasLiteral_iff]
  exact and_comm

end

def sampleSDP : SDP where
  lines := ["v=0".toList, endOfCandidates]
  isLine := by
    have hreturn : ∀ line ∈ ["v=0".toList, endOfCandidates], '\r' ∉ line := by decide
    exact fun line hline hin => hreturn line hline (hin.subset mem_cons_self)
  whole := by
    intro line hline hin
    rcases mem_pair.mp hline with rfl | rfl
    · exact absurd hin.length_le (by decide)
    · rfl

def samplePublic : Public where
  host := "203.0.113.5".toList
  port := 40001
  word := ⟨by decide, forall_mem_eq_false (by decide)⟩
  brackets := forall_mem_of_all (by decide)
  isInt := by decide
  literal := by decide
  port_ne := by decide

def namedRelay : Endpoint where
  host := "relay.example".toList
  port := 3478
  word := ⟨by decide, forall_mem_eq_false (by decide)⟩
  brackets := forall_mem_of_all (by decide)
  isInt := by decide

/-- A relay that is given by its name is dropped again. -/
theorem relayByName_dropped :
    candidates (text sampleSDP.lines) samplePublic.host samplePublic.port namedRelay.addr 40000 =
        text (expected sampleSDP (some samplePublic) none 40000) ∧
      text (expected sampleSDP (some samplePublic) (some namedRelay) 40000) ≠
        text (expected sampleSDP (some samplePublic) none 40000) := by
  decide +kernel

end NatProxy.WebRTC.ICEFilter
