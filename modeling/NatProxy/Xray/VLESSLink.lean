import NatProxy.Lib.GoNet
import NatProxy.Lib.GoURLText
import NatProxy.Lib.JsonStruct

/-!
# VLESS links

Model of `golib/xray/vlesslink.go`: `GenerateVLESSLink` writes the parameters of a connection as a
URL with the scheme `vless`, and `ParseVLESSLink` reads one. The proxy settings are JSON, read over
the defaults of `golib/xray/server.go`; the settings that no link has are left out. A Go string is
the list of its bytes, each as the character with its number.

`parse_generate` says what every generated link is read as: the parameters it was made of, unless
the address is an IPv6 literal. `GenerateVLESSLink` puts such an address in brackets and
`net.JoinHostPort` puts it in another pair, so `ParseVLESSLink` rejects the link.
-/

namespace NatProxy.Xray.VLESS

open Lib NatProxy.Lib.Json NatProxy.Lib.GoURL NatProxy.Lib.GoNet List

/-! ## Proxy settings -/

inductive SettingsField where
  | protocol | transport | xhttpPath | xhttpHost | xhttpMode | finalMaskType | finalMaskPassword
deriving DecidableEq, Repr

namespace SettingsField

def all : List SettingsField :=
  [protocol, transport, xhttpPath, xhttpHost, xhttpMode, finalMaskType, finalMaskPassword]

def name : SettingsField → String
  | protocol => "protocol"
  | transport => "transport"
  | xhttpPath => "xhttpPath"
  | xhttpHost => "xhttpHost"
  | xhttpMode => "xhttpMode"
  | finalMaskType => "finalMaskType"
  | finalMaskPassword => "finalMaskPassword"

end SettingsField

def settingsSchema : Schema where
  Field := SettingsField
  decEq := inferInstance
  fields := SettingsField.all
  name := SettingsField.name
  kind := fun _ => .string
  omitempty := fun _ => false
  mem_fields := by
    intro f
    cases f <;> decide
  nodup_names := by decide

abbrev ProxySettings := settingsSchema.Record

def defaultProxySettings : ProxySettings
  | .protocol => "socks"
  | .transport => "kcp"
  | .xhttpPath => "/"
  | .xhttpHost => ""
  | .xhttpMode => "auto"
  | .finalMaskType => "header-dtls"
  | .finalMaskPassword => ""

/-- The error of `json.Unmarshal` is ignored. -/
def parseProxySettings (settingsJSON : String) : ProxySettings :=
  if settingsJSON ≠ "" then settingsSchema.fill defaultProxySettings settingsJSON.toList
  else defaultProxySettings

def ProxySettings.string (ps : ProxySettings) (f : SettingsField) : String := ps f

/-- The bytes of a string from JSON. -/
def ProxySettings.text (ps : ProxySettings) (f : SettingsField) : List Char :=
  Text.byteChars (ps.string f).toList

theorem ProxySettings.bytes_text (ps : ProxySettings) (f : SettingsField) :
    ∀ c ∈ ps.text f, c.toNat < 256 :=
  fun _ hc => Text.toNat_lt_of_mem_byteChars hc

/-! ## Generating a link -/

def finalMaskToHeaderType : String → Option String
  | "header-srtp" => some "srtp"
  | "header-dtls" => some "dtls"
  | "header-wechat" => some "wechat-video"
  | "header-utp" => some "utp"
  | "header-wireguard" => some "wireguard"
  | "header-dns" => some "dns"
  | "mkcp-original" => some "none"
  | "mkcp-aes128gcm" => some "none"
  | _ => none

def mapFinalMaskToHeaderType (fmType : String) : String :=
  (finalMaskToHeaderType fmType).getD "none"

def setNonempty (q : Values) (key value : List Char) : Values :=
  if value ≠ [] then q.set key value else q

/-- The query of a link. Every transport but `xhttp` counts as `kcp`. -/
def linkQuery (ps : ProxySettings) : Values :=
  let q := Values.set (Values.set [] "encryption".toList "none".toList)
    "security".toList "none".toList
  if ps.text .transport = "xhttp".toList then
    let q := q.set "type".toList "xhttp".toList
    let q := setNonempty q "path".toList (ps.text .xhttpPath)
    let q := setNonempty q "host".toList (ps.text .xhttpHost)
    setNonempty q "mode".toList (ps.text .xhttpMode)
  else
    let q := q.set "type".toList "kcp".toList
    let q := q.set "headerType".toList (mapFinalMaskToHeaderType (ps.string .finalMaskType)).toList
    setNonempty q "seed".toList (ps.text .finalMaskPassword)

def isIPv6Literal (address : List Char) : Bool := parseIP address && ':' ∈ address

def linkHost (address : List Char) : List Char :=
  if isIPv6Literal address then '[' :: address ++ [']'] else address

def generateVLESSLink (uuid address : List Char) (port : Int) (proxySettingsJSON : String)
    (remark : List Char) : List Char :=
  let ps := parseProxySettings proxySettingsJSON
  if ps.text .protocol ≠ "vless".toList then []
  else
    URL.string
      { scheme := "vless".toList
        user := some ⟨uuid, none⟩
        host := joinHostPort (linkHost address) (itoa port)
        fragment := remark
        rawQuery := (linkQuery ps).encode }

/-! ## Reading a link -/

structure VLESSLink where
  uuid : List Char
  address : List Char
  port : Int
  encryption : List Char
  security : List Char
  transport : List Char
  headerType : List Char := []
  seed : List Char := []
  path : List Char := []
  host : List Char := []
  mode : List Char := []
  remark : List Char
deriving DecidableEq, Repr

inductive LinkError where
  | notVLESS
  | invalidURL (err : GoURL.Error)
  | missingUUID
  | invalidHostPort (err : AddrError)
  | invalidPort
deriving DecidableEq, Repr

def transportFields (vl : VLESSLink) (q : Values) : VLESSLink :=
  if vl.transport = "kcp".toList then
    { vl with headerType := q.get "headerType".toList, seed := q.get "seed".toList }
  else if vl.transport = "xhttp".toList then
    { vl with
      path := q.get "path".toList
      host := q.get "host".toList
      mode := q.get "mode".toList }
  else vl

def linkOfURL (u : URL) : Except LinkError VLESSLink :=
  let uuid := (u.user.map Userinfo.username).getD []
  if uuid = [] then .error .missingUUID
  else
    match splitHostPort u.host with
    | .error err => .error (.invalidHostPort err)
    | .ok (hostRaw, portStr) =>
      match atoi portStr with
      | none => .error .invalidPort
      | some port =>
        let q := parseQuery u.rawQuery
        .ok (transportFields
          { uuid := uuid
            -- `strings.Trim(hostRaw, "[]")`
            address := Text.trim (fun c => c = '[' || c = ']') hostRaw
            port := port
            encryption := q.get "encryption".toList
            security := q.get "security".toList
            transport := q.get "type".toList
            remark := u.fragment } q)

def parseVLESSLink (link : List Char) : Except LinkError VLESSLink :=
  if ¬"vless://".toList <+: link then .error .notVLESS
  else
    match GoURL.parse parseIPLiteral link with
    | .error err => .error (.invalidURL err)
    | .ok u => linkOfURL u

/-! ## Parameters of a connection -/

/-- The bytes of a host name, escapes and other alphabets included. -/
def isHostChar (c : Char) : Bool :=
  c.isAlphanum || c ∈ "-._~!$&'()*+,;=%".toList || 128 ≤ c.toNat

inductive IsAddress (address : List Char) : Prop where
  | ipv4 (h : parseIPv4 address = true)
  | ipv6 (h : isIPv6Literal address = true)
  | hostName (hne : address ≠ []) (h : ∀ c ∈ address, isHostChar c = true)

structure Params where
  uuid : List Char
  address : List Char
  port : Nat
  settingsJSON : String
  remark : List Char
  uuid_ne : uuid ≠ []
  bytes : ∀ c ∈ uuid ++ address ++ remark, c.toNat < 256
  isAddress : IsAddress address
  port_pos : 1 ≤ port
  port_le : port ≤ 65535
  protocol : (parseProxySettings settingsJSON).text .protocol = "vless".toList
  transport : (parseProxySettings settingsJSON).text .transport = "kcp".toList ∨
    (parseProxySettings settingsJSON).text .transport = "xhttp".toList

namespace Params

variable (params : Params)

def settings : ProxySettings := parseProxySettings params.settingsJSON

def link : List Char :=
  generateVLESSLink params.uuid params.address params.port params.settingsJSON params.remark

/-- The parameters as `ParseVLESSLink` returns them: those of the other transport are empty. -/
def given : VLESSLink :=
  let vl : VLESSLink :=
    { uuid := params.uuid
      address := params.address
      port := params.port
      encryption := "none".toList
      security := "none".toList
      transport := params.settings.text .transport
      remark := params.remark }
  if params.settings.text .transport = "kcp".toList then
    { vl with
      headerType := (mapFinalMaskToHeaderType (params.settings.string .finalMaskType)).toList
      seed := params.settings.text .finalMaskPassword }
  else
    { vl with
      path := params.settings.text .xhttpPath
      host := params.settings.text .xhttpHost
      mode := params.settings.text .xhttpMode }

end Params

/-! ## The query of a link -/

theorem get_setNonempty (q : Values) (key value key' : List Char) :
    (setNonempty q key value).get key' =
      if key' = key ∧ value ≠ [] then value else q.get key' := by
  rw [setNonempty]
  by_cases hvalue : value ≠ []
  · rw [if_pos hvalue, Values.get_set]
    simp [hvalue]
  · simp [hvalue]

theorem bytes_setNonempty {q : Values} (h : q.Bytes) {key value : List Char}
    (hkey : ∀ c ∈ key, c.toNat < 256) (hvalue : ∀ c ∈ value, c.toNat < 256) :
    (setNonempty q key value).Bytes := by
  rw [setNonempty]
  split
  · exact h.set hkey hvalue
  · exact h

theorem setNonempty_ne {q : Values} (h : q ≠ []) (key value : List Char) :
    setNonempty q key value ≠ [] := by
  rw [setNonempty]
  split
  · exact q.set_ne key value
  · exact h

theorem linkQuery_ne (ps : ProxySettings) : linkQuery ps ≠ [] := by
  rw [linkQuery]
  dsimp only
  -- the two transports
  split
  · apply setNonempty_ne
    apply setNonempty_ne
    apply setNonempty_ne
    exact Values.set_ne _ _ _
  · apply setNonempty_ne
    exact Values.set_ne _ _ _

theorem bytes_mapFinalMaskToHeaderType (fmType : String) :
    ∀ c ∈ (mapFinalMaskToHeaderType fmType).toList, c.toNat < 256 := by
  rw [mapFinalMaskToHeaderType, finalMaskToHeaderType.eq_def]
  split <;> exact Text.forall_mem_of_all rfl

theorem bytes_linkQuery (ps : ProxySettings) : (linkQuery ps).Bytes := by
  have hnil : Values.Bytes [] := fun p hp => (nomatch hp)
  have hsecurity : (Values.set (Values.set [] "encryption".toList "none".toList)
      "security".toList "none".toList).Bytes := by
    apply Values.Bytes.set
    · exact hnil.set (Text.forall_mem_of_all rfl) (Text.forall_mem_of_all rfl)
    · exact Text.forall_mem_of_all rfl
    · exact Text.forall_mem_of_all rfl
  rw [linkQuery]
  dsimp only
  split
  · apply bytes_setNonempty
    · apply bytes_setNonempty
      · apply bytes_setNonempty
        · exact hsecurity.set (Text.forall_mem_of_all rfl) (Text.forall_mem_of_all rfl)
        · exact Text.forall_mem_of_all rfl
        · exact ps.bytes_text .xhttpPath
      · exact Text.forall_mem_of_all rfl
      · exact ps.bytes_text .xhttpHost
    · exact Text.forall_mem_of_all rfl
    · exact ps.bytes_text .xhttpMode
  · apply bytes_setNonempty
    · apply Values.Bytes.set
      · exact hsecurity.set (Text.forall_mem_of_all rfl) (Text.forall_mem_of_all rfl)
      · exact Text.forall_mem_of_all rfl
      · exact bytes_mapFinalMaskToHeaderType _
    · exact Text.forall_mem_of_all rfl
    · exact ps.bytes_text .finalMaskPassword

theorem transportFields_linkQuery (params : Params) :
    transportFields
      { uuid := params.uuid
        address := params.address
        port := params.port
        encryption := (linkQuery params.settings).get "encryption".toList
        security := (linkQuery params.settings).get "security".toList
        transport := (linkQuery params.settings).get "type".toList
        remark := params.remark } (linkQuery params.settings) = params.given := by
  rcases params.transport with hkcp | hxhttp
  · have htransport : params.settings.text .transport = "kcp".toList := hkcp
    simp [transportFields, Params.given, linkQuery, htransport, get_setNonempty, Values.get_set]
  · have htransport : params.settings.text .transport = "xhttp".toList := hxhttp
    simp [transportFields, Params.given, linkQuery, htransport, get_setNonempty, Values.get_set]

/-! ## The host of a link -/

theorem plainScheme_vless : PlainScheme "vless".toList where
  alpha := ⟨'v', "less".toList, rfl, rfl⟩
  chars := by simp; decide
  lower := rfl

theorem isHostChar_of_parseIPv4 {address : List Char} (h : parseIPv4 address = true) :
    ∀ c ∈ address, isHostChar c = true := by
  intro c hc
  rcases parseIPv4Fields_chars h c hc with hdigit | rfl
  · rw [isHostChar, Char.isAlphanum, hdigit, Bool.or_true]
    rfl
  · decide

theorem IsAddress.isHostChar {address : List Char} (h : IsAddress address)
    (hv6 : isIPv6Literal address = false) : ∀ c ∈ address, isHostChar c = true := by
  cases h with
  | ipv4 h => exact isHostChar_of_parseIPv4 h
  | ipv6 h =>
    rw [hv6] at h
    cases h
  | hostName hne h => exact h

theorem readable_of_isHostChar {c : Char} (h : isHostChar c = true) : Readable .host c := by
  refine ⟨by decide, fun _ hescape => ?_⟩
  by_cases hlarge : 128 ≤ c.toNat
  · exact .inr hlarge
  · have hall : ∀ n < 128, isHostChar (Char.ofNat n) = true →
        shouldEscape (Char.ofNat n) .host = true → Char.ofNat n = '%' := by
      decide +kernel
    have hchar := hall c.toNat (Nat.lt_of_not_le hlarge)
    rw [Char.ofNat_toNat] at hchar
    exact .inl (hchar h hescape)

theorem parseHost_ipv6 {address digits : List Char} (h : isIPv6Literal address = true)
    (hdigits : digits.all Char.isDigit = true) :
    parseHost parseIPLiteral (escape .host (joinHostPort (linkHost address) digits)) =
      .error .ipLiteral := by
  have hparse : parseIP address = true ∧ ':' ∈ address := by
    rw [isIPv6Literal, Bool.and_eq_true, decide_eq_true_eq] at h
    exact h
  have hcolon : ':' ∈ '[' :: address ++ [']'] :=
    mem_append_left _ (mem_cons_of_mem _ hparse.2)
  have hhost : joinHostPort (linkHost address) digits =
      '[' :: ('[' :: address ++ [']']) ++ ']' :: ':' :: digits := by
    rw [linkHost, if_pos h, joinHostPort, if_pos hcolon]
  have hplain : Plain .host ('[' :: ('[' :: address ++ [']']) ++ ']' :: ':' :: digits) := by
    intro c hc
    simp only [mem_append, mem_cons, not_mem_nil, or_false] at hc
    rcases hc with (rfl | (rfl | hc) | rfl) | rfl | rfl | hc
    · decide
    · decide
    · exact addrChar_plain (addrChar_of_parseIP hparse.1 c hc)
    · decide
    · decide
    · decide
    · have halnum : c.isAlphanum = true := by
        rw [Char.isAlphanum, all_eq_true.mp hdigits c hc, Bool.or_true]
      rw [shouldEscape.eq_def, if_pos halnum]
  have hbracket : '[' ∈ '[' :: ('[' :: address ++ [']']) ++ ']' :: ':' :: digits :=
    mem_cons_self
  rw [hhost, escape_plain hplain, parseHost, if_pos hbracket]
  exact parseIPLiteral_doubled hparse.1 hdigits

/-! ## The round trip -/

namespace Params

variable (params : Params)

/-- The URL of a link to this host. -/
def url (host : List Char) : URL :=
  { scheme := "vless".toList, user := some ⟨params.uuid, none⟩, host := host
    rawQuery := (linkQuery params.settings).encode, fragment := params.remark }

theorem rawQuery_url (host : List Char) :
    (params.url host).rawQuery = (linkQuery params.settings).encode := by
  rw [url]

theorem hosted_url {host : List Char} (hhost : host ≠ []) : Hosted (params.url host) where
  path := .inl rfl
  bytes := fun _ hc => nomatch hc
  raw := .inl rfl
  scheme := plainScheme_vless
  noOpaque := rfl
  host := hhost
  user := by
    constructor
    · rintro _ ⟨⟩ c hc
      exact params.bytes c (mem_append_left _ (mem_append_left _ hc))
    · rintro _ ⟨⟩ _ ⟨⟩

theorem joinHostPort_ne (host port : List Char) : joinHostPort host port ≠ [] := by
  rw [joinHostPort]
  split_ifs <;> simp

theorem link_eq : params.link =
    (params.url (joinHostPort (linkHost params.address) (itoa params.port))).string := by
  rw [link, generateVLESSLink, if_neg (not_not.mpr params.protocol)]
  rfl

theorem parse_link : GoURL.parse parseIPLiteral params.link =
    (parseHost parseIPLiteral (escape .host
      (joinHostPort (linkHost params.address) (itoa params.port)))).map params.url := by
  rw [link_eq]
  apply (params.hosted_url (joinHostPort_ne _ _)).parse_string _ rfl ⟨rfl, rfl⟩
  · rw [rawQuery_url]
    exact Values.encode_ne (linkQuery_ne _)
  · intro c hc
    rw [rawQuery_url] at hc
    refine ⟨Values.isControl_of_mem_encode hc, ?_⟩
    rintro rfl
    exact Values.notMem_encode rfl (by decide) (by decide) hc
  · exact ⟨rfl, fun c hc => params.bytes c (mem_append_right _ hc)⟩

theorem isPrefix_link : "vless://".toList <+: params.link := by
  rw [link_eq]
  exact (params.hosted_url (joinHostPort_ne _ _)).prefix_string

theorem linkOfURL_link (hv6 : isIPv6Literal params.address = false) :
    linkOfURL (params.url (params.address ++ ':' :: itoa params.port)) = .ok params.given := by
  have hchars := params.isAddress.isHostChar hv6
  have hout {c : Char} (hc : VLESS.isHostChar c = false) : c ∉ params.address := by
    intro hmem
    rw [hchars c hmem] at hc
    cases hc
  have hsplit : splitHostPort (params.address ++ ':' :: itoa params.port) =
      .ok (params.address, itoa params.port) := by
    have hhost : ∀ c ∈ ['[', ']'], c ∉ params.address := by
      simp [hout (c := '[') rfl, hout (c := ']') rfl]
    have hjoin := splitHostPort_joinHostPort hhost (itoa_out params.port)
    rwa [joinHostPort, if_neg (hout (c := ':') rfl)] at hjoin
  have hport : atoi (itoa params.port) = some (params.port : Int) := by
    have hle := params.port_le
    exact atoi_itoa (by omega)
  have htrim : Text.trim (fun c => c = '[' || c = ']') params.address = params.address := by
    apply Text.trim_eq_self
    intro c hc
    rw [Bool.or_eq_false_iff, decide_eq_false_iff_not, decide_eq_false_iff_not]
    exact ⟨fun heq => hout rfl (heq ▸ hc), fun heq => hout rfl (heq ▸ hc)⟩
  have hget (key : List Char) :
      (parseQuery (linkQuery params.settings).encode).get key =
        (linkQuery params.settings).get key :=
    get_parseQuery_encode (bytes_linkQuery _) (linkQuery_ne _) key
  rw [linkOfURL]
  simp only [url, Option.map_some, Option.getD_some, params.uuid_ne, if_false, hsplit,
    hport, htrim]
  rw [← transportFields_linkQuery]
  simp only [transportFields, hget]

end Params

/-- **What a generated link is read as**: the parameters that it was made of, unless the address is
an IPv6 literal. -/
theorem parse_generate (params : Params) :
    parseVLESSLink params.link =
      if isIPv6Literal params.address then .error (.invalidURL .ipLiteral)
      else .ok params.given := by
  rw [parseVLESSLink, if_neg (not_not.mpr params.isPrefix_link), params.parse_link]
  cases hv6 : isIPv6Literal params.address with
  | true =>
    rw [parseHost_ipv6 hv6 (all_isDigit_itoa params.port)]
    rfl
  | false =>
    have hchars := params.isAddress.isHostChar hv6
    have hcolon : ':' ∉ params.address := by
      intro hmem
      exact absurd (hchars ':' hmem) (by decide)
    have hbytes : ∀ c ∈ params.address, c.toNat < 256 := fun c hc =>
      params.bytes c (mem_append_left _ (mem_append_right _ hc))
    rw [linkHost, hv6, if_neg Bool.false_ne_true, joinHostPort, if_neg hcolon,
      parseHost_port hbytes (fun c hc => readable_of_isHostChar (hchars c hc))
        (fun hmem => absurd (hchars _ hmem) (by decide)) (all_isDigit_itoa params.port)]
    exact params.linkOfURL_link hv6

/-- **The round trip** works exactly if the address is no IPv6 literal. -/
theorem roundTrips_iff (params : Params) :
    parseVLESSLink params.link = .ok params.given ↔ isIPv6Literal params.address = false := by
  rw [parse_generate]
  cases hv6 : isIPv6Literal params.address with
  | true =>
    rw [if_pos rfl]
    exact ⟨fun h => (nomatch h), fun h => (nomatch h)⟩
  | false =>
    rw [if_neg Bool.false_ne_true]
    exact ⟨fun _ => rfl, fun _ => rfl⟩

def ipv6Params : Params where
  uuid := "u".toList
  address := "::1".toList
  port := 443
  settingsJSON := "\x7b\"protocol\":\"vless\"\x7d"
  remark := "r".toList
  uuid_ne := by decide
  bytes := Text.forall_mem_of_all rfl
  isAddress := .ipv6 (by decide)
  port_pos := by decide
  port_le := by decide
  protocol := by decide +kernel
  transport := .inl (by decide +kernel)

/-- Its link cannot be read. If `url.Parse` let the host through, `net.SplitHostPort` would not
split it. -/
theorem ipv6_rejected :
    ipv6Params.link = ("vless://u@[[::1]]:443?encryption=none&headerType=dtls&security=none" ++
      "&type=kcp#r").toList ∧
    parseVLESSLink ipv6Params.link = .error (.invalidURL .ipLiteral) ∧
    splitHostPort "[[::1]]:443".toList = .error .missingPort := by
  refine ⟨?_, ?_, ?_⟩ <;> decide +kernel

def namedParams : Params where
  uuid := "a/b".toList
  address := "host.example".toList
  port := 443
  settingsJSON := "\x7b\"protocol\":\"vless\",\"transport\":\"xhttp\",\"xhttpPath\":\"/a b\"\x7d"
  remark := "my #1".toList
  uuid_ne := by decide
  bytes := Text.forall_mem_of_all rfl
  isAddress := .hostName (by decide) (all_eq_true.mp rfl)
  port_pos := by decide
  port_le := by decide
  protocol := by decide +kernel
  transport := .inr (by decide +kernel)

theorem roundTrips_named :
    namedParams.given.path = "/a b".toList ∧
      parseVLESSLink namedParams.link = .ok namedParams.given :=
  ⟨by decide +kernel, (roundTrips_iff namedParams).mpr (by decide +kernel)⟩

end NatProxy.Xray.VLESS
