import NatProxy.Lib.GoNet
import NatProxy.Lib.TextParts

/-!
# The STUN server of the settings

One text of the settings names a STUN server, and it takes two ways. `NormalizeICEServer`
(`golib/util/url_normalize.go`), `resolveICEServers` and `extractAllSTUNAddrs`
(`golib/webrtc/peer.go`) make of it the address to which ICE discovery sends its requests.
`StartSTUNKeepalive` (`golib/webrtc/keepalive.go`) gets it with the second default server behind it,
and pings the first address that can be resolved. From the accept loop it gets the text without
blanks around, as `StartServer` has trimmed it (`golib/api.go`), and in manual mode the text as it
is. The app puts `stun:` in front of what is typed in (`normalizeIceServer`,
`lib/utils/url_utils.dart`).

`setting_iff` says for which texts each way leads to the address that is written in the text:
discovery needs the prefix in small letters, or none, and the keepalive no prefix (`appSetting`) and
in manual mode no blanks.
-/

namespace NatProxy.WebRTC.STUNSetting

open Lib NatProxy.Lib.Text Lib.GoNet List

/-! ## The two ways -/

def stunScheme : List Char := "stun:".toList

def lower (s : List Char) : List Char := s.map Char.toLower

/-- The names before the colon that are taken for a scheme. -/
def schemes : List (List Char) := ["stun".toList, "turn".toList, "turns".toList]

/-- The scheme tests of `NormalizeICEServer`. They are the same in Dart. -/
def hasScheme (s : List Char) : Bool :=
  schemes.any fun scheme => (scheme ++ [':']).isPrefixOf (lower s)

def normalizeICEServer (raw : List Char) : List Char :=
  let s := trimSpace raw
  if s = [] then s else if hasScheme s = true then s else stunScheme ++ s

def normalizeIceServer (input : List Char) : List Char :=
  let s := trim isDartSpace input
  if s = [] then s else if hasScheme s = true then s else stunScheme ++ s

def cutPrefix (front s : List Char) : Option (List Char) :=
  if front.isPrefixOf s then some (s.drop front.length) else none

/-- The address that `resolveICEServers` takes: the first of IPv4, which is written with dots, or
else the first. -/
def chosenIP (ips : List (List Char)) : Option (List Char) := (ips.find? parseIPv4).or ips.head?

/-- `addr` is what `net.ResolveUDPAddr` has for a host and a port in `udp4`; `lookupHost` returns no
address if there is an error. -/
structure Net (Addr : Type) where
  addr : List Char → List Char → Option Addr
  lookupHost : List Char → List (List Char)
  brackets : ∀ host, ∀ ip ∈ lookupHost host, ∀ c ∈ ['[', ']'], c ∉ ip
  consistent : ∀ host port ip, parseIP host = false → chosenIP (lookupHost host) = some ip →
    addr ip port = addr host port
  blank : ∀ host port, (∃ c ∈ host ++ port, isSpace c = true) → addr host port = none

section

variable {Addr : Type} (net : Net Addr)

def Net.resolveUDPAddr (hostport : List Char) : Option Addr :=
  match splitHostPort hostport with
  | .error _ => none
  | .ok (host, port) => net.addr host port

def resolveICEServer (s : List Char) : List Char :=
  match cutPrefix stunScheme s with
  | none => s
  | some addr =>
    match splitHostPort addr with
    | .error _ => s
    | .ok (host, port) =>
      if parseIP host = true then s
      else
        match chosenIP (net.lookupHost host) with
        | none => s
        | some ip => stunScheme ++ joinHostPort ip port

def resolveICEServers (iceServers : List (List Char)) : List (List Char) :=
  iceServers.map (resolveICEServer net)

/-- The addresses, each of them once. -/
def extractAllSTUNAddrs (iceServers : List (List Char)) : List (List Char) :=
  (iceServers.filterMap (cutPrefix stunScheme)).foldl
    (fun addrs addr => if addr ∈ addrs then addrs else addrs ++ [addr]) []

/-- Where discovery sends the requests for the server of the settings. -/
def discoveryAddr (stunServer : List Char) : Option Addr :=
  (extractAllSTUNAddrs (resolveICEServers net [normalizeICEServer stunServer])).head?.bind
    net.resolveUDPAddr

def defaultStunServer2 : List Char := "stun1.l.google.com:19302".toList

/-- Where the keepalive sends its requests: the first address of the list that can be resolved. -/
def startSTUNKeepalive (stunServers : List (List Char)) : Option Addr :=
  (stunServers.filterMap net.resolveUDPAddr).head?

/-- The keepalive of the accept loop. `StartServer` has trimmed the setting. -/
def acceptLoopAddr (stunServer : List Char) : Option Addr :=
  startSTUNKeepalive net [trimSpace stunServer, defaultStunServer2]

/-- The keepalive of manual mode. -/
def manualAddr (stunServer : List Char) : Option Addr :=
  startSTUNKeepalive net [stunServer, defaultStunServer2]

end

/-! ## Settings -/

/-- `stun:` in any letter case. -/
def stunPrefixes : List (List Char) :=
  ['s', 'S'].flatMap fun s => ['t', 'T'].flatMap fun t => ['u', 'U'].flatMap fun u =>
    ['n', 'N'].map fun n => [s, t, u, n, ':']

/-- A host and a port, perhaps with a prefix and with blanks around. -/
structure Setting where
  lead : List Char
  scheme : List Char
  host : List Char
  port : List Char
  trail : List Char
  isScheme : scheme = [] ∨ scheme ∈ stunPrefixes
  blankLead : ∀ c ∈ lead, isSpace c = true
  blankTrail : ∀ c ∈ trail, isSpace c = true
  chars : ∀ c ∈ host ++ port, isSpace c = false ∧ c ∉ [':', '[', ']']

namespace Setting

variable (s : Setting)

def address : List Char := s.host ++ ':' :: s.port

def text : List Char := s.lead ++ (s.scheme ++ s.address) ++ s.trail

variable {s}

theorem host_out : ∀ c ∈ [':', '[', ']'], c ∉ s.host :=
  fun c hc hmem => (s.chars c (mem_append_left _ hmem)).2 hc

theorem port_out : ∀ c ∈ [':', '[', ']'], c ∉ s.port :=
  fun c hc hmem => (s.chars c (mem_append_right _ hmem)).2 hc

theorem splitHostPort_address : splitHostPort s.address = .ok (s.host, s.port) :=
  splitHostPort_append s.host_out s.port_out

theorem isSpace_address : ∀ c ∈ s.address, isSpace c = false := by
  intro c hc
  rcases mem_append.mp hc with hhost | htail
  · exact (s.chars c (mem_append_left _ hhost)).1
  · rcases mem_cons.mp htail with rfl | hport
    · rfl
    · exact (s.chars c (mem_append_right _ hport)).1

theorem isSpace_scheme : ∀ c ∈ s.scheme, isSpace c = false := by
  have hall : stunPrefixes.all (·.all fun c => !isSpace c) = true := by decide
  intro c hc
  rcases s.isScheme with hnone | hscheme
  · rw [hnone] at hc
    cases hc
  · simpa using all_eq_true.mp (all_eq_true.mp hall _ hscheme) c hc

theorem trimSpace_text : trimSpace s.text = s.scheme ++ s.address := by
  have hsolid : ∀ c ∈ s.scheme ++ s.address, isSpace c = false := by
    intro c hc
    rcases mem_append.mp hc with hscheme | haddress
    · exact s.isSpace_scheme c hscheme
    · exact s.isSpace_address c haddress
  apply TextParts.Tight.trim _ s.lead s.trail s.blankLead s.blankTrail
  exact ⟨by simp [address], fun c hc => hsolid c (mem_of_mem_head? hc),
    fun c hc => hsolid c (mem_of_mem_getLast? hc)⟩

theorem hasScheme_address : hasScheme s.address = true ↔ lower s.host ∈ schemes := by
  have hlower : lower s.address = lower s.host ++ ':' :: lower s.port := by simp [lower, address]
  have hcolon : ':' ∉ lower s.host := by
    intro hmem
    obtain ⟨c, hc, heq⟩ := mem_map.mp hmem
    exact s.host_out ':' (by simp) (eq_of_toLower (by decide) heq ▸ hc)
  have hnone : ∀ scheme ∈ schemes, ':' ∉ scheme := by decide
  rw [hasScheme, any_eq_true, hlower]
  constructor
  · rintro ⟨scheme, hscheme, hfront⟩
    obtain ⟨rest, heq⟩ := List.isPrefixOf_iff_prefix.mp hfront
    have hcut := cut_append (hnone scheme hscheme) rest
    rw [← singleton_append, ← append_assoc, heq, cut_append hcolon] at hcut
    have hsame : lower s.host = scheme := congrArg Prod.fst hcut
    exact hsame ▸ hscheme
  · intro hmem
    exact ⟨_, hmem, List.isPrefixOf_iff_prefix.mpr ⟨lower s.port, by simp⟩⟩

end Setting

/-! ## Discovery -/

theorem cutPrefix_append (front s : List Char) : cutPrefix front (front ++ s) = some s := by
  simp [cutPrefix]

theorem of_stunPrefix {x : List Char} (hx : x ∈ stunPrefixes) (s : List Char) :
    hasScheme (x ++ s) = true ∧ (x ≠ stunScheme → cutPrefix stunScheme (x ++ s) = none) := by
  have hlower : ∀ x ∈ stunPrefixes, lower x = stunScheme ∧ x.length = 5 := by decide
  obtain ⟨hstun, hlength⟩ := hlower x hx
  constructor
  · have hfront : stunScheme <+: lower (x ++ s) := ⟨lower s, by simp [lower, ← hstun]⟩
    exact any_eq_true.mpr ⟨"stun".toList, by decide, List.isPrefixOf_iff_prefix.mpr hfront⟩
  · intro hne
    rw [cutPrefix, if_neg]
    intro hfront
    have heq := List.IsPrefix.eq_of_length
      (prefix_of_prefix_length_le (List.isPrefixOf_iff_prefix.mp hfront)
        (prefix_append x s) (by rw [hlength]; decide)) hlength.symm
    exact hne heq.symm

section

variable {Addr : Type} {net : Net Addr} {s : Setting} {a : Addr}

theorem discoveryAddr_eq (stunServer : List Char) :
    discoveryAddr net stunServer =
      (cutPrefix stunScheme (resolveICEServer net (normalizeICEServer stunServer))).bind
        net.resolveUDPAddr := by
  simp only [discoveryAddr, extractAllSTUNAddrs, resolveICEServers, map_cons, map_nil,
    filterMap_cons, filterMap_nil]
  cases cutPrefix stunScheme (resolveICEServer net (normalizeICEServer stunServer)) with
  | none | some addr => rfl

theorem resolveUDPAddr_address : net.resolveUDPAddr s.address = net.addr s.host s.port := by
  rw [Net.resolveUDPAddr, s.splitHostPort_address]

theorem resolveICEServer_address (h : net.addr s.host s.port = some a) :
    ∃ addr, resolveICEServer net (stunScheme ++ s.address) = stunScheme ++ addr ∧
      net.resolveUDPAddr addr = some a := by
  have hsame : net.resolveUDPAddr s.address = some a := resolveUDPAddr_address.trans h
  rw [resolveICEServer, cutPrefix_append]
  dsimp only
  rw [s.splitHostPort_address]
  dsimp only
  split_ifs with hip
  · exact ⟨_, rfl, hsame⟩
  · cases hchosen : chosenIP (net.lookupHost s.host) with
    | none => exact ⟨_, rfl, hsame⟩
    | some ip =>
      refine ⟨_, rfl, ?_⟩
      have hmem : ip ∈ net.lookupHost s.host := by
        rcases Option.or_eq_some_iff.mp hchosen with hfind | ⟨-, hhead⟩
        · exact mem_of_find?_eq_some hfind
        · exact mem_of_mem_head? hhead
      rw [Net.resolveUDPAddr, splitHostPort_joinHostPort (net.brackets s.host ip hmem) s.port_out]
      exact (net.consistent s.host s.port ip (by simpa using hip) hchosen).trans h

theorem normalizeICEServer_text : normalizeICEServer s.text =
    if hasScheme (s.scheme ++ s.address) = true then s.scheme ++ s.address
    else stunScheme ++ (s.scheme ++ s.address) := by
  rw [normalizeICEServer, s.trimSpace_text, if_neg (by simp [Setting.address])]

theorem splitHostPort_port : splitHostPort s.port = .error .missingPort := by
  rw [splitHostPort, cutLast_of_notMem (s.port_out ':' (by simp))]

theorem discoveryAddr_of_mem_schemes (hbare : s.scheme = []) (hname : lower s.host ∈ schemes) :
    discoveryAddr net s.text = none := by
  have hnorm : normalizeICEServer s.text = s.address := by
    rw [normalizeICEServer_text, hbare, nil_append, if_pos (s.hasScheme_address.mpr hname)]
  rw [discoveryAddr_eq, hnorm, resolveICEServer]
  cases hcut : cutPrefix stunScheme s.address with
  | none => simp [hcut]
  | some rest =>
    have hrest : rest = s.port := by
      obtain ⟨hfront, hdrop⟩ := Option.ite_none_right_eq_some.mp hcut
      obtain ⟨back, heq⟩ := List.isPrefixOf_iff_prefix.mp hfront
      have hcolon : ':' ∉ "stun".toList := by decide
      have hsplit := cut_append hcolon back
      rw [show "stun".toList ++ ':' :: back = s.address from heq, Setting.address,
        cut_append (s.host_out ':' (by simp))] at hsplit
      rw [← Option.some.inj hdrop, ← heq, drop_left]
      exact (Option.some.inj (congrArg Prod.snd hsplit)).symm
    subst hrest
    simp [splitHostPort_port, hcut, Net.resolveUDPAddr]

theorem discoveryAddr_iff (h : net.addr s.host s.port = some a) :
    discoveryAddr net s.text = some a ↔
      s.scheme = stunScheme ∨ (s.scheme = [] ∧ lower s.host ∉ schemes) := by
  obtain ⟨addr, hresolve, haddr⟩ := resolveICEServer_address h
  have hfound : normalizeICEServer s.text = stunScheme ++ s.address →
      discoveryAddr net s.text = some a := by
    intro hnorm
    rw [discoveryAddr_eq, hnorm, hresolve, cutPrefix_append]
    exact haddr
  rcases s.isScheme with hbare | hscheme
  · have hne : s.scheme ≠ stunScheme := by simp [hbare, stunScheme]
    by_cases hname : lower s.host ∈ schemes
    · simp [discoveryAddr_of_mem_schemes hbare hname, hne, hname]
    · have hnot : hasScheme s.address = false := by
        rw [← Bool.not_eq_true, s.hasScheme_address]
        exact hname
      have hnorm : normalizeICEServer s.text = stunScheme ++ s.address := by
        rw [normalizeICEServer_text, hbare, nil_append, hnot, if_neg (by simp)]
      exact iff_of_true (hfound hnorm) (.inr ⟨hbare, hname⟩)
  · obtain ⟨hhas, hother⟩ := of_stunPrefix hscheme s.address
    have hnorm : normalizeICEServer s.text = s.scheme ++ s.address := by
      rw [normalizeICEServer_text, if_pos hhas]
    by_cases hstun : s.scheme = stunScheme
    · exact iff_of_true (hfound (hnorm.trans (by rw [hstun]))) (.inl hstun)
    · have hbare : s.scheme ≠ [] := by
        intro hbare
        rw [hbare] at hscheme
        exact absurd hscheme (by decide)
      rw [discoveryAddr_eq, hnorm, resolveICEServer, hother hstun]
      simp [hother hstun, hstun, hbare]

/-! ## The keepalive -/

theorem resolveUDPAddr_text (h : ¬ (s.lead = [] ∧ s.scheme = [] ∧ s.trail = [])) :
    net.resolveUDPAddr s.text = none := by
  have hblank : ∀ c ∈ [':', '[', ']'], c ∉ s.lead ∧ c ∉ s.trail := by
    intro c hc
    have hsolid := forall_mem_eq_false (p := isSpace) (by decide) c hc
    constructor
    · intro hmem
      rw [s.blankLead c hmem] at hsolid
      cases hsolid
    · intro hmem
      rw [s.blankTrail c hmem] at hsolid
      cases hsolid
  have hport : ∀ c ∈ [':', '[', ']'], c ∉ s.port ++ s.trail := fun c hc =>
    not_mem_append (s.port_out c hc) (hblank c hc).2
  have htext : s.text = (s.lead ++ s.scheme ++ s.host) ++ ':' :: (s.port ++ s.trail) := by
    simp [Setting.text, Setting.address]
  rcases s.isScheme with hbare | hscheme
  · have hhost : ∀ c ∈ [':', '[', ']'], c ∉ s.lead ++ s.scheme ++ s.host := fun c hc => by
      simp [hbare, (hblank c hc).1, s.host_out c hc]
    rw [Net.resolveUDPAddr, htext, splitHostPort_append hhost hport]
    apply net.blank
    simp only [hbare, true_and, not_and_or] at h
    rcases h with hlead | htrail
    · obtain ⟨c, cs, hcons⟩ := exists_cons_of_ne_nil hlead
      exact ⟨c, by simp [hcons], s.blankLead c (by simp [hcons])⟩
    · obtain ⟨c, cs, hcons⟩ := exists_cons_of_ne_nil htrail
      exact ⟨c, by simp [hcons], s.blankTrail c (by simp [hcons])⟩
  · -- two colons
    have hchars : ∀ x ∈ stunPrefixes, '[' ∉ x ∧ ':' ∈ x := by decide
    obtain ⟨hopen, hcolon⟩ := hchars _ hscheme
    have hhead : s.text.head? ≠ some '[' := by
      intro hhead
      have hmem := mem_of_mem_head? hhead
      simp [htext, hopen, (hblank '[' (by simp)).1, s.host_out '[' (by simp),
        hport '[' (by simp)] at hmem
    have hsplit : splitHostPort s.text = .error .tooManyColons := by
      rw [htext] at hhead ⊢
      rw [splitHostPort, cutLast_append _ _ (hport ':' (by simp))]
      dsimp only
      rw [if_neg hhead, if_pos (by simp [hcolon])]
    rw [Net.resolveUDPAddr, hsplit]

theorem manualAddr_iff (h : net.addr s.host s.port = some a) :
    manualAddr net s.text = some a ↔
      (s.lead = [] ∧ s.scheme = [] ∧ s.trail = []) ∨
        net.resolveUDPAddr defaultStunServer2 = some a := by
  by_cases hbare : s.lead = [] ∧ s.scheme = [] ∧ s.trail = []
  · have htext : net.resolveUDPAddr s.text = some a := by
      rw [Setting.text, hbare.1, hbare.2.1, hbare.2.2]
      simpa using resolveUDPAddr_address.trans h
    exact iff_of_true (by simp [manualAddr, startSTUNKeepalive, htext]) (.inl hbare)
  · simp only [manualAddr, startSTUNKeepalive, filterMap_cons, resolveUDPAddr_text hbare, hbare,
      false_or]
    cases net.resolveUDPAddr defaultStunServer2 with
    | none | some b => simp

/-- The setting without the blanks around it. -/
def Setting.trimmed (s : Setting) : Setting :=
  { s with
    lead := []
    trail := []
    blankLead := fun _ h => nomatch h
    blankTrail := fun _ h => nomatch h }

theorem acceptLoopAddr_iff (h : net.addr s.host s.port = some a) :
    acceptLoopAddr net s.text = some a ↔
      s.scheme = [] ∨ net.resolveUDPAddr defaultStunServer2 = some a := by
  have htrimmed : trimSpace s.text = s.trimmed.text :=
    s.trimSpace_text.trans (append_nil _).symm
  have hmanual := manualAddr_iff (s := s.trimmed) h
  rw [acceptLoopAddr, htrimmed]
  refine hmanual.trans ?_
  simp [Setting.trimmed]

/-- **Which settings lead to their own address**, for discovery and for the keepalive. -/
theorem setting_iff (net : Net Addr) (s : Setting) (a : Addr)
    (h : net.addr s.host s.port = some a) :
    (discoveryAddr net s.text = some a ↔
      s.scheme = stunScheme ∨ (s.scheme = [] ∧ lower s.host ∉ schemes)) ∧
    (acceptLoopAddr net s.text = some a ↔
      s.scheme = [] ∨ net.resolveUDPAddr defaultStunServer2 = some a) ∧
    (manualAddr net s.text = some a ↔
      (s.lead = [] ∧ s.scheme = [] ∧ s.trail = []) ∨
        net.resolveUDPAddr defaultStunServer2 = some a) :=
  ⟨discoveryAddr_iff h, acceptLoopAddr_iff h, manualAddr_iff h⟩

end

def sampleNet : Net (List Char × List Char) where
  addr host port :=
    if (host ++ port).any isSpace = true then none else some (host, port)
  lookupHost _ := []
  brackets _ _ h := nomatch h
  consistent _ _ _ _ h := nomatch h
  blank _ _ h := if_pos (any_eq_true.mpr h)

def paddedSetting : Setting where
  lead := [' ']
  scheme := []
  host := "stun.example.org".toList
  port := "3478".toList
  trail := [' ']
  isScheme := .inl rfl
  blankLead := forall_mem_of_all (by decide)
  blankTrail := forall_mem_of_all (by decide)
  chars := forall_mem_of_all (by decide)

theorem setting_iff_padded :
    discoveryAddr sampleNet paddedSetting.text = some (paddedSetting.host, paddedSetting.port) ∧
    acceptLoopAddr sampleNet paddedSetting.text = some (paddedSetting.host, paddedSetting.port) ∧
    manualAddr sampleNet paddedSetting.text ≠ some (paddedSetting.host, paddedSetting.port) := by
  obtain ⟨hdiscovery, haccept, hmanual⟩ := setting_iff sampleNet paddedSetting
    (paddedSetting.host, paddedSetting.port) (by decide)
  exact ⟨hdiscovery.mpr (.inr ⟨rfl, by decide⟩), haccept.mpr (.inl rfl), mt hmanual.mp (by decide)⟩

theorem appSetting :
    normalizeIceServer "stun.example.org:3478".toList = "stun:stun.example.org:3478".toList ∧
    discoveryAddr sampleNet "stun:stun.example.org:3478".toList =
      some ("stun.example.org".toList, "3478".toList) ∧
    acceptLoopAddr sampleNet "stun:stun.example.org:3478".toList =
      some ("stun1.l.google.com".toList, "19302".toList) ∧
    manualAddr sampleNet "stun:stun.example.org:3478".toList =
      some ("stun1.l.google.com".toList, "19302".toList) := by
  decide

/-- Other letters: discovery does not know the server. -/
example : discoveryAddr sampleNet "STUN:stun.example.org:3478".toList = none := by decide

end NatProxy.WebRTC.STUNSetting
