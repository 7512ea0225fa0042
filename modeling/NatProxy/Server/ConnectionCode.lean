import NatProxy.Lib.Base64
import NatProxy.Lib.JsonStruct
import NatProxy.Server.StartServer

/-!
# Connection codes

The code that `StartServer` returns (`golib/api.go`): a `connectionInfo` as JSON, in base64. Here
are the fields of `connectionInfo` with their names in JSON, `encodeBase64`, `decodeBase64` and
`generateUUID` (`golib/util.go`), and how `StartClient` and `ConnectWebRTC` read a code.

`parseConnectionCode_connectionCode`: the client reads what the server has written, for every value
of every field.
-/

namespace NatProxy.Server.Code

open Lib Lib.Json

/-! ## The fields -/

inductive InfoField where
  | publicIP | port | uuid | transport | method | stunPort | sessionID | protocol | proxySettings
  | obfsKey | relayAddr | padding | version | sigV | transportV
  | numPeerConns | numChannels | smuxStreamBuffer | smuxSessionBuffer | smuxFrameSize
  | dcMaxBuffered | dcLowMark | paddingMax | smuxKeepAlive | smuxKeepAliveTimeout
deriving DecidableEq, Repr

namespace InfoField

def all : List InfoField :=
  [publicIP, port, uuid, transport, method, stunPort, sessionID, protocol, proxySettings, obfsKey,
    relayAddr, padding, version, sigV, transportV, numPeerConns, numChannels, smuxStreamBuffer,
    smuxSessionBuffer, smuxFrameSize, dcMaxBuffered, dcLowMark, paddingMax, smuxKeepAlive,
    smuxKeepAliveTimeout]

def name : InfoField → String
  | publicIP => "ip"
  | port => "port"
  | uuid => "uuid"
  | transport => "transport"
  | method => "method"
  | stunPort => "stun_port"
  | sessionID => "session_id"
  | protocol => "protocol"
  | proxySettings => "proxy_settings"
  | obfsKey => "obfs_key"
  | relayAddr => "relay_addr"
  | padding => "padding"
  | version => "v"
  | sigV => "sig_v"
  | transportV => "transport_v"
  | numPeerConns => "npc"
  | numChannels => "nc"
  | smuxStreamBuffer => "ssb"
  | smuxSessionBuffer => "srb"
  | smuxFrameSize => "sfr"
  | dcMaxBuffered => "dcb"
  | dcLowMark => "dcl"
  | paddingMax => "pm"
  | smuxKeepAlive => "ska"
  | smuxKeepAliveTimeout => "skt"

def kind : InfoField → Kind
  | publicIP | uuid | transport | method | sessionID | protocol | proxySettings | obfsKey
  | relayAddr => .string
  | padding => .bool
  | port | stunPort | version | sigV | transportV | numPeerConns | numChannels | smuxStreamBuffer
  | smuxSessionBuffer | smuxFrameSize | dcMaxBuffered | dcLowMark | paddingMax | smuxKeepAlive
  | smuxKeepAliveTimeout => .int

def omitempty : InfoField → Bool
  | publicIP | port | uuid | transport | method | protocol => false
  | _ => true

end InfoField

def infoSchema : Schema where
  Field := InfoField
  decEq := inferInstance
  fields := InfoField.all
  name := InfoField.name
  kind := InfoField.kind
  omitempty := InfoField.omitempty
  mem_fields := by
    intro f
    cases f <;> decide
  nodup_names := by decide

abbrev Info := infoSchema.Record

namespace Info

variable (info : Info)

def uuid : String := info .uuid

def method : String := info .method

def transport : String := info .transport

def sessionID : String := info .sessionID

def relayAddr : String := info .relayAddr

def numPeerConns : Int := info .numPeerConns

end Info

/-- The settings of the peer connections that the server passes on to the client. -/
structure Tuning where
  padding : Bool := false
  numChannels : Int := 0
  smuxStreamBuffer : Int := 0
  smuxSessionBuffer : Int := 0
  smuxFrameSize : Int := 0
  dcMaxBuffered : Int := 0
  dcLowMark : Int := 0
  paddingMax : Int := 0
  smuxKeepAlive : Int := 0
  smuxKeepAliveTimeout : Int := 0
deriving DecidableEq, Repr

/-- The `connectionInfo` that `StartServer` fills; it never sets the port for STUN. -/
def fill (info : Start.ConnectionInfo) (tuning : Tuning) : Info
  | .publicIP => info.publicIP
  | .port => info.port
  | .uuid => info.uuid
  | .transport => info.transport
  | .method => info.method
  | .stunPort => (0 : Int)
  | .sessionID => info.sessionID
  | .protocol => info.protocol
  | .proxySettings => info.proxySettings
  | .obfsKey => info.obfsKey
  | .relayAddr => info.relayAddr
  | .padding => tuning.padding
  | .version => (info.version : Int)
  | .sigV => (info.sigV : Int)
  | .transportV => (info.transportV : Int)
  | .numPeerConns => info.numPeerConns
  | .numChannels => tuning.numChannels
  | .smuxStreamBuffer => tuning.smuxStreamBuffer
  | .smuxSessionBuffer => tuning.smuxSessionBuffer
  | .smuxFrameSize => tuning.smuxFrameSize
  | .dcMaxBuffered => tuning.dcMaxBuffered
  | .dcLowMark => tuning.dcLowMark
  | .paddingMax => tuning.paddingMax
  | .smuxKeepAlive => tuning.smuxKeepAlive
  | .smuxKeepAliveTimeout => tuning.smuxKeepAliveTimeout

/-! ## The code -/

def encodeBase64 (data : List UInt8) : String :=
  String.ofList (Base64.encode Base64.std true data)

def decodeBase64 (s : String) : Option (List UInt8) :=
  Base64.decodeLines Base64.std true s.toList

def connectionCode (info : Info) : String :=
  encodeBase64 (Text.utf8Encode (infoSchema.marshal info))

def parseConnectionCode (code : String) : Except String Info :=
  match decodeBase64 code with
  | none => .error "invalid connection code"
  | some infoJSON =>
    match (Text.utf8Decode infoJSON).bind (infoSchema.unmarshal infoSchema.zero) with
    | none => .error "parse connection info"
    | some info => .ok info

theorem decodeBase64_encodeBase64 (data : List UInt8) :
    decodeBase64 (encodeBase64 data) = some data := by
  rw [decodeBase64, encodeBase64, String.toList_ofList, Base64.decodeLines_encode]

/-- **The client reads what the server has written.** -/
theorem parseConnectionCode_connectionCode (info : Info) :
    parseConnectionCode (connectionCode info) = .ok info := by
  simp only [parseConnectionCode, connectionCode, decodeBase64_encodeBase64,
    Text.utf8Decode_utf8Encode, Option.bind_some, Schema.unmarshal_marshal]

/-! ## Identifiers -/

def hexByte (b : UInt8) : List Char := [hexDigit (b.toNat / 16), hexDigit (b.toNat % 16)]

/-- The random bytes with the version and the variant of a UUID in them. -/
def stamp (random : Fin 16 → UInt8) : Fin 16 → UInt8 :=
  Function.update (Function.update random 6 ((random 6 &&& 0x0f) ||| 0x40))
    8 ((random 8 &&& 0x3f) ||| 0x80)

def generateUUID (random : Fin 16 → UInt8) : String :=
  let uuid := stamp random
  let hex := fun (is : List (Fin 16)) => is.flatMap fun i => hexByte (uuid i)
  String.ofList (hex [0, 1, 2, 3] ++ '-' :: hex [4, 5] ++ '-' :: hex [6, 7] ++ '-' :: hex [8, 9] ++
    '-' :: hex [10, 11, 12, 13, 14, 15])

theorem generateUUID_ne_empty (random : Fin 16 → UInt8) : generateUUID random ≠ "" := by
  intro h
  have hlist := congrArg String.toList h
  simp [generateUUID, hexByte] at hlist

end NatProxy.Server.Code
