import NatProxy.Lib.ChunkedReader
import NatProxy.Lib.Frames
import NatProxy.Lib.GoIP
import NatProxy.Lib.GoNet
import NatProxy.Lib.GoSlice

/-!
# The SOCKS5 front ends

Model of `handleSocks5Conn` and `readTargetAddr` of `golib/webrtc/socks5.go`, of
`handleGroupSocks5Conn` of `group.go` and of `Client.DialStream`. The handlers have the same
statements up to the target; then one writes the header itself, the other with `DialStream`. The
client of the proxy is a reader that gives its bytes in any chunks. The handlers read into one
buffer of 258 bytes; an index or a slice that is out of range is a panic.

A Go string is the list of its bytes as characters. The padding below the header is the matter of
`PaddedRoundTrip`.

`Request` is the format that the handlers accept. A handler gets to its target exactly if the input
begins with a request, and reads nothing more (`request_append`, `request_ok`). Both front ends do
the same (`handleGroupSocks5Conn_eq`), and what they write is read by `readTargetAddr` as
`net.JoinHostPort` of the requested host and port (`frontEnds_agree`).
-/

namespace NatProxy.WebRTC.Socks5

open Lib List
open Lib.ChunkedReader (Reader)

def ofBytes (b : Bytes) : List Char := b.map fun x => Char.ofNat x.toNat

def toBytes (s : List Char) : Bytes := s.map fun c => UInt8.ofNat c.toNat

def dnsChannelTarget : List Char := "__dns__".toList

/-! ## The handshake -/

/-- A handler ends without a target: in a panic, or after these replies. -/
inductive End where
  | panic
  | returned (replies : Bytes)
  deriving DecidableEq, Repr

/-- What the peer sends, the buffer, and what was written. -/
structure Conn where
  reader : Reader UInt8
  buf : Bytes
  size : buf.length = 258
  replies : Bytes

def overwrite (buf bytes : Bytes) : Bytes := (bytes ++ buf.drop bytes.length).take buf.length

theorem length_overwrite (buf bytes : Bytes) : (overwrite buf bytes).length = buf.length := by
  rw [overwrite, length_take, length_append, length_drop]
  omega

theorem take_overwrite {buf bytes : Bytes} (h : bytes.length ≤ buf.length) :
    (overwrite buf bytes).take bytes.length = bytes := by
  rw [overwrite, take_take, Nat.min_eq_left h, take_left]

/-- `io.ReadFull(conn, buf[:n])`, and the return when it fails. -/
def Conn.readFull (s : Conn) (n : Nat) : Except End Conn :=
  match GoSlice.slice s.buf 0 n with
  | none => .error .panic
  | some _ =>
    match s.reader.readFull n with
    | (.error _, _) => .error (.returned s.replies)
    | (.ok bytes, reader) =>
      .ok ⟨reader, overwrite s.buf bytes, (length_overwrite s.buf bytes).trans s.size,
        s.replies⟩

def Conn.byte (s : Conn) (i : Nat) : Except End UInt8 :=
  match GoSlice.index s.buf i with
  | none => .error .panic
  | some b => .ok b

def Conn.front (s : Conn) (n : Nat) : Except End Bytes :=
  match GoSlice.slice s.buf 0 n with
  | none => .error .panic
  | some b => .ok b

def Conn.write (s : Conn) (bytes : Bytes) : Conn := { s with replies := s.replies ++ bytes }

/-- The reply with a code: 0 success, 1 general failure, 7 command and 8 address type not
supported. -/
def reply (code : UInt8) : Bytes := [0x05, code, 0x00, 0x01, 0, 0, 0, 0, 0, 0]

def Conn.start (reader : Reader UInt8) : Conn :=
  ⟨reader, replicate 258 0, length_replicate, []⟩

def negotiate (conn : Conn) : Except End Conn := do
  let conn ← conn.readFull 2
  let version ← conn.byte 0
  if version ≠ 0x05 then .error (.returned conn.replies)
  else
    let nmethods ← conn.byte 1
    let conn ← conn.readFull nmethods.toNat
    return conn.write [0x05, 0x00]

/-- The begin of the request, up to the address type. -/
def command (conn : Conn) : Except End (Conn × UInt8) := do
  let conn ← conn.readFull 4
  let cmd ← conn.byte 1
  if cmd ≠ 0x01 then .error (.returned (conn.write (reply 0x07)).replies)
  else
    let atyp ← conn.byte 3
    return (conn, atyp)

def Conn.readFront (conn : Conn) (n : Nat) : Except End (Conn × Bytes) := do
  let conn ← conn.readFull n
  let bytes ← conn.front n
  return (conn, bytes)

/-- The address of the request, as a host. -/
def readHost (conn : Conn) (atyp : UInt8) : Except End (Conn × List Char) :=
  if atyp = 0x01 then do
    let read ← conn.readFront 4
    return (read.1, GoIP.ipString read.2)
  else if atyp = 0x03 then do
    let conn ← conn.readFull 1
    let domainLen ← conn.byte 0
    let read ← conn.readFront domainLen.toNat
    return (read.1, ofBytes read.2)
  else if atyp = 0x04 then do
    let read ← conn.readFront 16
    return (read.1, GoIP.ipString read.2)
  else .error (.returned (conn.write (reply 0x08)).replies)

/-- The statements that both handlers have in common, up to the target. -/
def request (reader : Reader UInt8) : Except End (Conn × List Char) := do
  let conn ← negotiate (Conn.start reader)
  let header ← command conn
  let host ← readHost header.1 header.2
  let port ← host.1.readFront 2
  return (port.1, GoNet.joinHostPort host.2 (GoNet.itoa (getNat port.2)))

/-! ## The handlers -/

/-- Whether `openStream` gives a stream, and whether the write of the header succeeds. -/
structure Env where
  opens : Bool
  writes : Bool
  deriving DecidableEq, Repr

/-- The replies, whether a stream was opened, the header written to it, and what `relay` reads from
the connection. -/
structure Handled where
  replies : Bytes
  opened : Bool := false
  header : Option Bytes := none
  relayed : Option (Reader UInt8) := none

/-- `[2-byte length][target string]`. -/
def targetHeader (target : List Char) : Bytes := frame (toBytes target)

def handleSocks5Conn (env : Env) (reader : Reader UInt8) : Option Handled :=
  match request reader with
  | .error .panic => none
  | .error (.returned replies) => some { replies := replies }
  | .ok (conn, target) =>
    if env.opens = false then some { replies := conn.replies ++ reply 0x01 }
    else if env.writes = false then
      some { replies := conn.replies ++ reply 0x01, opened := true }
    else
      some {
        replies := conn.replies ++ reply 0x00
        opened := true
        header := some (targetHeader target)
        relayed := some conn.reader }

/-- Whether a stream was opened, and the header if there is no error. -/
def dialStream (env : Env) (target : List Char) : Bool × Option Bytes :=
  if env.opens = false then (false, none)
  else if env.writes = false then (true, none)
  else (true, some (targetHeader target))

def handleGroupSocks5Conn (env : Env) (reader : Reader UInt8) : Option Handled :=
  match request reader with
  | .error .panic => none
  | .error (.returned replies) => some { replies := replies }
  | .ok (conn, target) =>
    match dialStream env target with
    | (opened, none) => some { replies := conn.replies ++ reply 0x01, opened := opened }
    | (opened, some header) =>
      some {
        replies := conn.replies ++ reply 0x00
        opened := opened
        header := some header
        relayed := some conn.reader }

/-! ## The server's side -/

inductive AddrError where
  | readLength
  | invalidLength (n : Nat)
  | readAddr
  deriving DecidableEq, Repr

def readTargetAddr (reader : Reader UInt8) : Except AddrError (List Char) × Reader UInt8 :=
  match reader.readFull 2 with
  | (.error _, reader) => (.error .readLength, reader)
  | (.ok lenBuf, reader) =>
    let addrLen := getNat lenBuf
    if addrLen = 0 ∨ 512 < addrLen then (.error (.invalidLength addrLen), reader)
    else
      match reader.readFull addrLen with
      | (.error _, reader) => (.error .readAddr, reader)
      | (.ok addr, reader) => (.ok (ofBytes addr), reader)

/-! ## The format of a request -/

/-- The address of a request: four bytes, a name of up to 255 bytes, or sixteen bytes. -/
inductive Address where
  | ipv4 (ip : Bytes) (h : ip.length = 4)
  | domain (name : Bytes) (h : name.length < 256)
  | ipv6 (ip : Bytes) (h : ip.length = 16)

/-- What a client sends before its data. The version of the request and the reserved byte may be
anything. -/
structure Request where
  methods : Bytes
  short : methods.length < 256
  version : UInt8
  reserved : UInt8
  address : Address
  port : Bytes
  width : port.length = 2

/-- The address type and the address on the wire. -/
def Address.atyp : Address → UInt8
  | .ipv4 _ _ => 0x01
  | .domain _ _ => 0x03
  | .ipv6 _ _ => 0x04

def Address.encode : Address → Bytes
  | .ipv4 ip _ => ip
  | .domain name _ => UInt8.ofNat name.length :: name
  | .ipv6 ip _ => ip

def Address.host : Address → List Char
  | .ipv4 ip _ => GoIP.ipString ip
  | .domain name _ => ofBytes name
  | .ipv6 ip _ => GoIP.ipString ip

def Request.encode (req : Request) : Bytes :=
  [0x05, UInt8.ofNat req.methods.length] ++ (req.methods ++
    ([req.version, 0x01, req.reserved, req.address.atyp] ++ (req.address.encode ++ req.port)))

/-- `net.JoinHostPort` of the requested host and port. -/
def Request.target (req : Request) : List Char :=
  GoNet.joinHostPort req.address.host (GoNet.itoa (getNat req.port))

/-! ## One read -/

section Binds

variable {α β : Type}

theorem bind_eq_ok {x : Except End α} {f : α → Except End β} {b : β} (h : (x >>= f) = .ok b) :
    ∃ a, x = .ok a ∧ f a = .ok b := by
  cases x with
  | error e => cases h
  | ok a => exact ⟨a, rfl, h⟩

def Safe (x : Except End α) : Prop := x ≠ .error .panic

theorem safe_ok (a : α) : Safe (.ok a : Except End α) := nofun

theorem safe_returned (replies : Bytes) : Safe (.error (.returned replies) : Except End α) := nofun

theorem Safe.bind {x : Except End α} {f : α → Except End β} (hx : Safe x)
    (hf : ∀ a, Safe (f a)) : Safe (x >>= f) := by
  cases x with
  | error e =>
    intro h
    exact hx (congrArg Except.error (Except.error.inj h))
  | ok a => exact hf a

end Binds

section Reads

variable {s : Conn} {n : Nat}

theorem slice_front (s : Conn) (hn : n ≤ 258) : GoSlice.slice s.buf 0 n = some (s.buf.take n) := by
  have hrange : 0 + n ≤ s.buf.length := by
    rw [s.size]
    omega
  have hslice := GoSlice.slice_natCast hrange
  rw [Nat.zero_add] at hslice
  exact hslice

theorem front_eq (s : Conn) (hn : n ≤ 258) : s.front n = .ok (s.buf.take n) := by
  rw [Conn.front, slice_front s hn]

theorem byte_eq {bytes : Bytes} {i : Nat} {b : UInt8} (h : s.buf.take n = bytes)
    (hi : bytes[i]? = some b) : s.byte i = .ok b := by
  have hbuf : s.buf[i]? = some b := by
    rw [← h, getElem?_take] at hi
    split at hi
    · exact hi
    · cases hi
  rw [Conn.byte, GoSlice.index_natCast, hbuf]

/-- **One read.** It takes its bytes from the input to the front of the buffer, or the handler
returns as the input is too short. -/
theorem readFull_cases (s : Conn) (hn : n ≤ 258) :
    (∃ bytes t, s.readFull n = .ok t ∧ bytes.length = n ∧
        s.reader.rest = bytes ++ t.reader.rest ∧ t.buf.take n = bytes ∧ t.replies = s.replies) ∨
      (s.readFull n = .error (.returned s.replies) ∧ s.reader.rest.length < n) := by
  obtain ⟨hresult, hrest⟩ := ChunkedReader.readFull_eq s.reader n
  rw [ChunkedReader.fullOf] at hresult
  rw [Conn.readFull, slice_front s hn]
  dsimp only
  rcases hread : s.reader.readFull n with ⟨result, reader⟩
  rw [hread] at hresult hrest
  dsimp only at hresult hrest
  by_cases hlen : n ≤ s.reader.rest.length
  · rw [if_pos hlen] at hresult
    subst hresult
    have hbytes : (s.reader.rest.take n).length = n := length_take_of_le hlen
    refine .inl ⟨s.reader.rest.take n, _, rfl, hbytes, ?_, ?_, rfl⟩
    · rw [hrest, take_append_drop]
    · have hfits : (s.reader.rest.take n).length ≤ s.buf.length := by
        rw [hbytes, s.size]
        exact hn
      have hfront := take_overwrite hfits
      rw [hbytes] at hfront
      exact hfront
  · rw [if_neg hlen] at hresult
    subst hresult
    exact .inr ⟨rfl, Nat.lt_of_not_le hlen⟩

theorem readFull_append {bytes rest : Bytes} (h : s.reader.rest = bytes ++ rest)
    (hlen : bytes.length = n) (hn : n ≤ 258) :
    ∃ t, s.readFull n = .ok t ∧ t.reader.rest = rest ∧ t.buf.take n = bytes ∧
      t.replies = s.replies := by
  rcases readFull_cases s hn with ⟨read, t, hok, hread, hrest, hbuf, hreplies⟩ | ⟨-, hshort⟩
  · obtain ⟨rfl, hrest'⟩ := append_inj (hrest.symm.trans h) (hread.trans hlen.symm)
    exact ⟨t, hok, hrest', hbuf, hreplies⟩
  · rw [h, length_append] at hshort
    omega

theorem readFull_ok {t : Conn} (hn : n ≤ 258) (h : s.readFull n = .ok t) :
    ∃ bytes, bytes.length = n ∧ s.reader.rest = bytes ++ t.reader.rest ∧
      t.buf.take n = bytes := by
  rcases readFull_cases s hn with ⟨bytes, u, hok, hlen, hrest, hbuf, -⟩ | ⟨herror, -⟩
  · obtain rfl := Except.ok.inj (hok.symm.trans h)
    exact ⟨bytes, hlen, hrest, hbuf⟩
  · rw [herror] at h
    cases h

theorem readFull_safe (s : Conn) (hn : n ≤ 258) : Safe (s.readFull n) := by
  rcases readFull_cases s hn with ⟨bytes, t, hok, -⟩ | ⟨herror, -⟩
  · rw [hok]
    exact safe_ok t
  · rw [herror]
    exact safe_returned s.replies

theorem byte_safe (s : Conn) {i : Nat} (hi : i < 258) : Safe (s.byte i) := by
  rw [← s.size] at hi
  rw [Conn.byte, GoSlice.index_natCast, getElem?_eq_getElem hi]
  exact safe_ok _

theorem front_safe (s : Conn) (hn : n ≤ 258) : Safe (s.front n) := by
  rw [front_eq s hn]
  exact safe_ok _

theorem toNat_le (b : UInt8) : b.toNat ≤ 258 :=
  Nat.le_of_lt (Nat.lt_of_lt_of_le b.toNat_lt (by decide))

end Reads

/-! ## The parts of a request -/

section Parts

variable {s : Conn}

theorem toNat_length {bytes : Bytes} (h : bytes.length < 256) :
    (UInt8.ofNat bytes.length).toNat = bytes.length := by
  rw [UInt8.toNat_ofNat']
  exact Nat.mod_eq_of_lt h

variable {rest : Bytes}

theorem negotiate_append {methods : Bytes} (hshort : methods.length < 256)
    (h : s.reader.rest = [0x05, UInt8.ofNat methods.length] ++ (methods ++ rest)) :
    ∃ t, negotiate s = .ok t ∧ t.reader.rest = rest ∧ t.replies = s.replies ++ [0x05, 0x00] := by
  obtain ⟨t, hread, hrest, hbuf, hreplies⟩ := readFull_append h rfl (Nat.le_add_left 2 256)
  obtain ⟨u, hread', hrest', -, hreplies'⟩ :=
    readFull_append hrest (toNat_length hshort).symm (toNat_le _)
  have hversion : t.byte 0 = .ok 0x05 := byte_eq hbuf rfl
  have hcount : t.byte 1 = .ok (UInt8.ofNat methods.length) := byte_eq hbuf rfl
  refine ⟨u.write [0x05, 0x00], ?_, hrest', ?_⟩
  · rw [negotiate, show s.readFull 2 = _ from hread]
    show (t.byte 0 >>= _) = _
    rw [hversion]
    show (t.byte 1 >>= _) = _
    rw [hcount]
    show (t.readFull (UInt8.ofNat methods.length).toNat >>= _) = _
    rw [hread']
    rfl
  · rw [Conn.write, hreplies', hreplies]

theorem negotiate_ok {t : Conn} (h : negotiate s = .ok t) :
    ∃ methods, methods.length < 256 ∧
      s.reader.rest = [0x05, UInt8.ofNat methods.length] ++ (methods ++ t.reader.rest) := by
  obtain ⟨u, hread, h⟩ := bind_eq_ok h
  obtain ⟨bytes, hlen, hrest, hbuf⟩ := readFull_ok (by decide) hread
  obtain ⟨version, nmethods, rfl⟩ := length_eq_two.mp hlen
  obtain ⟨b, hversion, h⟩ := bind_eq_ok h
  obtain rfl := Except.ok.inj ((byte_eq hbuf rfl).symm.trans hversion)
  split at h
  · cases h
  rename_i hfive
  obtain ⟨c, hcount, h⟩ := bind_eq_ok h
  obtain rfl := Except.ok.inj ((byte_eq hbuf rfl).symm.trans hcount)
  obtain ⟨v, hread', h⟩ := bind_eq_ok h
  obtain ⟨methods, hmethods, hrest', -⟩ := readFull_ok (toNat_le nmethods) hread'
  obtain rfl := Except.ok.inj h
  refine ⟨methods, ?_, ?_⟩
  · rw [hmethods]
    exact nmethods.toNat_lt
  · rw [hrest, hrest', not_not.mp hfive, hmethods, UInt8.ofNat_toNat]
    rfl

theorem negotiate_safe (s : Conn) : Safe (negotiate s) := by
  refine (readFull_safe s (by decide)).bind fun t => (byte_safe t (by decide)).bind fun b => ?_
  split
  · exact safe_returned t.replies
  · refine (byte_safe t (by decide)).bind fun c => (readFull_safe t (toNat_le c)).bind fun u => ?_
    exact safe_ok _

variable {atyp : UInt8}

theorem command_append {version reserved : UInt8}
    (h : s.reader.rest = [version, 0x01, reserved, atyp] ++ rest) :
    ∃ t, command s = .ok (t, atyp) ∧ t.reader.rest = rest ∧ t.replies = s.replies := by
  obtain ⟨t, hread, hrest, hbuf, hreplies⟩ := readFull_append h rfl (Nat.le_add_left 4 254)
  have hcmd : t.byte 1 = .ok 0x01 := byte_eq hbuf rfl
  have hatyp : t.byte 3 = .ok atyp := byte_eq hbuf rfl
  refine ⟨t, ?_, hrest, hreplies⟩
  rw [command, show s.readFull 4 = _ from hread]
  show (t.byte 1 >>= _) = _
  rw [hcmd]
  show (t.byte 3 >>= _) = _
  rw [hatyp]
  rfl

theorem command_ok {t : Conn} (h : command s = .ok (t, atyp)) :
    ∃ version reserved, s.reader.rest = [version, 0x01, reserved, atyp] ++ t.reader.rest := by
  obtain ⟨u, hread, h⟩ := bind_eq_ok h
  obtain ⟨bytes, hlen, hrest, hbuf⟩ := readFull_ok (by decide) hread
  obtain ⟨version, cmd, reserved, b, rfl⟩ := length_eq_four.mp hlen
  obtain ⟨c, hcmd, h⟩ := bind_eq_ok h
  obtain rfl := Except.ok.inj ((byte_eq hbuf rfl).symm.trans hcmd)
  split at h
  · cases h
  rename_i hone
  obtain ⟨d, hatyp, h⟩ := bind_eq_ok h
  obtain rfl := Except.ok.inj ((byte_eq hbuf rfl).symm.trans hatyp)
  obtain ⟨rfl, rfl⟩ := Prod.mk.inj (Except.ok.inj h)
  exact ⟨version, reserved, by rw [hrest, not_not.mp hone]⟩

theorem command_safe (s : Conn) : Safe (command s) := by
  refine (readFull_safe s (by decide)).bind fun t => (byte_safe t (by decide)).bind fun b => ?_
  split
  · exact safe_returned _
  · exact (byte_safe t (by decide)).bind fun c => safe_ok _

variable {n : Nat}

theorem readFront_append {bytes : Bytes} (h : s.reader.rest = bytes ++ rest)
    (hlen : bytes.length = n) (hn : n ≤ 258) :
    ∃ t, s.readFront n = .ok (t, bytes) ∧ t.reader.rest = rest ∧ t.replies = s.replies := by
  obtain ⟨t, hread, hrest, hbuf, hreplies⟩ := readFull_append h hlen hn
  refine ⟨t, ?_, hrest, hreplies⟩
  rw [Conn.readFront, hread]
  show (t.front n >>= _) = _
  rw [front_eq t hn, hbuf]
  rfl

theorem readFront_ok (hn : n ≤ 258) {r : Conn × Bytes} (h : s.readFront n = .ok r) :
    r.2.length = n ∧ s.reader.rest = r.2 ++ r.1.reader.rest := by
  obtain ⟨t, hread, h⟩ := bind_eq_ok h
  obtain ⟨bytes, hlen, hrest, hbuf⟩ := readFull_ok hn hread
  obtain ⟨front, hfront, h⟩ := bind_eq_ok h
  rw [front_eq t hn, hbuf] at hfront
  obtain rfl := Except.ok.inj hfront
  obtain rfl := Except.ok.inj h
  exact ⟨hlen, hrest⟩

theorem readFront_safe (s : Conn) (hn : n ≤ 258) : Safe (s.readFront n) := by
  refine (readFull_safe s hn).bind fun t => (front_safe t hn).bind fun bytes => ?_
  exact safe_ok _

theorem readHost_append {address : Address} (h : s.reader.rest = address.encode ++ rest) :
    ∃ t, readHost s address.atyp = .ok (t, address.host) ∧ t.reader.rest = rest ∧
      t.replies = s.replies := by
  cases address with
  | ipv4 ip hip =>
    obtain ⟨t, hread, hrest, hreplies⟩ := readFront_append h hip (by decide)
    refine ⟨t, ?_, hrest, hreplies⟩
    rw [readHost, Address.atyp, if_pos rfl, hread]
    rfl
  | domain name hname =>
    have hsplit : s.reader.rest = [UInt8.ofNat name.length] ++ (name ++ rest) := h
    obtain ⟨t, hread, hrest, hbuf, hreplies⟩ :=
      readFull_append hsplit rfl (Nat.le_add_left 1 257)
    obtain ⟨u, hread', hrest', hreplies'⟩ :=
      readFront_append hrest (toNat_length hname).symm (toNat_le _)
    have hlen : t.byte 0 = .ok (UInt8.ofNat name.length) := byte_eq hbuf rfl
    refine ⟨u, ?_, hrest', hreplies'.trans hreplies⟩
    rw [readHost, Address.atyp, if_neg (by decide), if_pos rfl,
      show s.readFull 1 = _ from hread]
    show (t.byte 0 >>= _) = _
    rw [hlen]
    show (t.readFront (UInt8.ofNat name.length).toNat >>= _) = _
    rw [hread']
    rfl
  | ipv6 ip hip =>
    obtain ⟨t, hread, hrest, hreplies⟩ := readFront_append h hip (by decide)
    refine ⟨t, ?_, hrest, hreplies⟩
    rw [readHost, Address.atyp, if_neg (by decide), if_neg (by decide), if_pos rfl, hread]
    rfl

theorem readHost_ok {r : Conn × List Char} (h : readHost s atyp = .ok r) :
    ∃ address : Address, atyp = address.atyp ∧ r.2 = address.host ∧
      s.reader.rest = address.encode ++ r.1.reader.rest := by
  rw [readHost] at h
  split at h
  · next hatyp =>
      obtain ⟨read, hread, h⟩ := bind_eq_ok h
      obtain ⟨hlen, hrest⟩ := readFront_ok (by decide) hread
      obtain rfl := Except.ok.inj h
      exact ⟨.ipv4 read.2 hlen, hatyp, rfl, hrest⟩
  · split at h
    · next hatyp =>
        obtain ⟨t, hread, h⟩ := bind_eq_ok h
        obtain ⟨bytes, hone, hrest, hbuf⟩ := readFull_ok (by decide) hread
        obtain ⟨domainLen, rfl⟩ := length_eq_one_iff.mp hone
        obtain ⟨b, hbyte, h⟩ := bind_eq_ok h
        obtain rfl := Except.ok.inj ((byte_eq hbuf rfl).symm.trans hbyte)
        obtain ⟨read, hread', h⟩ := bind_eq_ok h
        obtain ⟨hlen, hrest'⟩ := readFront_ok (toNat_le domainLen) hread'
        obtain rfl := Except.ok.inj h
        have hshort : read.2.length < 256 := by
          rw [hlen]
          exact domainLen.toNat_lt
        refine ⟨.domain read.2 hshort, hatyp, rfl, ?_⟩
        rw [hrest, hrest', Address.encode, hlen, UInt8.ofNat_toNat]
        rfl
    · split at h
      · next hatyp =>
          obtain ⟨read, hread, h⟩ := bind_eq_ok h
          obtain ⟨hlen, hrest⟩ := readFront_ok (by decide) hread
          obtain rfl := Except.ok.inj h
          exact ⟨.ipv6 read.2 hlen, hatyp, rfl, hrest⟩
      · cases h

theorem readHost_safe (s : Conn) (atyp : UInt8) : Safe (readHost s atyp) := by
  rw [readHost]
  split
  · exact (readFront_safe s (by decide)).bind fun read => safe_ok _
  · split
    · refine (readFull_safe s (by decide)).bind fun t => (byte_safe t (by decide)).bind fun b => ?_
      exact (readFront_safe t (toNat_le b)).bind fun read => safe_ok _
    · split
      · exact (readFront_safe s (by decide)).bind fun read => safe_ok _
      · exact safe_returned _

end Parts

/-! ## The whole request -/

variable {reader : Reader UInt8} {rest : Bytes}

theorem request_append {req : Request} (h : reader.rest = req.encode ++ rest) :
    ∃ conn, request reader = .ok (conn, req.target) ∧ conn.reader.rest = rest ∧
      conn.replies = [0x05, 0x00] := by
  have hstart : (Conn.start reader).reader.rest = reader.rest := rfl
  rw [h, Request.encode, append_assoc, append_assoc, append_assoc,
    append_assoc] at hstart
  obtain ⟨s, hnegotiate, hafterMethods, hreply⟩ := negotiate_append req.short hstart
  obtain ⟨t, hcommand, hafterCommand, hsame⟩ := command_append hafterMethods
  obtain ⟨u, hhost, hafterHost, hsame'⟩ := readHost_append hafterCommand
  obtain ⟨v, hport, hafterPort, hsame''⟩ := readFront_append hafterHost req.width (by decide)
  refine ⟨v, ?_, hafterPort, ?_⟩
  · rw [request, hnegotiate]
    show (command s >>= _) = _
    rw [hcommand]
    show (readHost t req.address.atyp >>= _) = _
    rw [hhost]
    show (u.readFront 2 >>= _) = _
    rw [hport]
    rfl
  · rw [hsame'', hsame', hsame, hreply]
    rfl

theorem request_ok {conn : Conn} {target : List Char} (h : request reader = .ok (conn, target)) :
    ∃ req : Request, target = req.target ∧ reader.rest = req.encode ++ conn.reader.rest := by
  obtain ⟨s, hnegotiate, h⟩ := bind_eq_ok h
  obtain ⟨methods, hshort, hstart⟩ := negotiate_ok hnegotiate
  obtain ⟨header, hcommand, h⟩ := bind_eq_ok h
  obtain ⟨version, reserved, hafterMethods⟩ := command_ok hcommand
  obtain ⟨host, hhost, h⟩ := bind_eq_ok h
  obtain ⟨address, hatyp, htext, hafterCommand⟩ := readHost_ok hhost
  obtain ⟨port, hport, h⟩ := bind_eq_ok h
  obtain ⟨hwidth, hafterHost⟩ := readFront_ok (by decide) hport
  obtain ⟨rfl, rfl⟩ := Prod.mk.inj (Except.ok.inj h)
  refine ⟨⟨methods, hshort, version, reserved, address, port.2, hwidth⟩, ?_, ?_⟩
  · rw [Request.target, ← htext]
  · grind [Conn.start, Request.encode, append_assoc]

theorem request_safe (reader : Reader UInt8) : Safe (request reader) := by
  refine (negotiate_safe _).bind fun s => (command_safe s).bind fun header => ?_
  refine (readHost_safe _ _).bind fun host => (readFront_safe _ (by decide)).bind fun port => ?_
  exact safe_ok _

/-! ## The target -/

theorem ofBytes_toBytes {text : List Char} (h : ∀ c ∈ text, c.toNat < 256) :
    ofBytes (toBytes text) = text := by
  induction text with
  | nil => rfl
  | cons c text ih =>
    have hc : Char.ofNat (UInt8.ofNat c.toNat).toNat = c := by
      rw [UInt8.toNat_ofNat', Nat.mod_eq_of_lt (h c mem_cons_self), Char.ofNat_toNat]
    have htext := ih fun d hd => h d (mem_cons_of_mem c hd)
    show Char.ofNat _ :: ofBytes (toBytes text) = _
    rw [hc, htext]

theorem length_toBytes (text : List Char) : (toBytes text).length = text.length :=
  length_map _

theorem byte_ofBytes (b : Bytes) : ∀ c ∈ ofBytes b, c.toNat < 256 := by
  intro c hc
  obtain ⟨x, -, rfl⟩ := mem_map.mp hc
  rw [Text.toNat_byteChar]
  exact x.toNat_lt

theorem Address.length_host_le (address : Address) : address.host.length ≤ 255 := by
  cases address with
  | ipv4 ip h => exact Nat.le_trans (GoIP.length_ipString_le (.inl h)) (by decide)
  | domain name h =>
    rw [Address.host, ofBytes, length_map]
    omega
  | ipv6 ip h => exact Nat.le_trans (GoIP.length_ipString_le (.inr h)) (by decide)

theorem Address.byte_host (address : Address) : ∀ c ∈ address.host, c.toNat < 256 := by
  intro c hc
  cases address with
  | ipv4 ip h => exact Nat.lt_of_lt_of_le (GoIP.ascii_ipString (.inl h) c hc) (by decide)
  | domain name h => exact byte_ofBytes name c hc
  | ipv6 ip h => exact Nat.lt_of_lt_of_le (GoIP.ascii_ipString (.inr h) c hc) (by decide)

theorem length_itoa_port {port : Bytes} (h : port.length = 2) :
    (GoNet.itoa (getNat port)).length ≤ 5 := by
  obtain ⟨hi, lo, rfl⟩ := length_eq_two.mp h
  have hvalue : getNat [hi, lo] = (0 * 256 + hi.toNat) * 256 + lo.toNat := rfl
  have hhi := hi.toNat_lt
  have hlo := lo.toNat_lt
  exact GoIP.length_decimal_le (by decide) (by omega)

theorem mem_joinHostPort {c : Char} {host port : List Char} (h : c ∈ GoNet.joinHostPort host port) :
    c = '[' ∨ c ∈ host ∨ c = ']' ∨ c = ':' ∨ c ∈ port := by
  rw [GoNet.joinHostPort] at h
  split at h
  · simpa [or_assoc] using h
  · grind

theorem colon_mem_joinHostPort (host port : List Char) : ':' ∈ GoNet.joinHostPort host port := by
  rw [GoNet.joinHostPort]
  split
  · next hcolon => exact mem_cons_of_mem _ (mem_append_left _ hcolon)
  · exact mem_append_right _ mem_cons_self

theorem length_joinHostPort_le (host port : List Char) :
    (GoNet.joinHostPort host port).length ≤ host.length + port.length + 3 := by
  rw [GoNet.joinHostPort]
  split
  · grind
  · rw [length_append, length_cons]
    omega

section Target

variable (req : Request)

theorem Request.length_target_le : req.target.length ≤ 263 := by
  have hjoin := length_joinHostPort_le req.address.host (GoNet.itoa (getNat req.port))
  have hhost := req.address.length_host_le
  have hport := length_itoa_port req.width
  rw [Request.target]
  omega

theorem Request.byte_target : ∀ c ∈ req.target, c.toNat < 256 := by
  intro c hc
  rcases mem_joinHostPort hc with rfl | hhost | rfl | rfl | hport
  · decide
  · exact req.address.byte_host c hhost
  · decide
  · decide
  · exact Nat.lt_of_lt_of_le (GoIP.ascii_decimal c hport) (by decide)

theorem Request.target_ne_nil : req.target ≠ [] :=
  ne_nil_of_mem (colon_mem_joinHostPort _ _)

theorem Request.target_ne_dnsChannelTarget : req.target ≠ dnsChannelTarget := by
  intro h
  have hcolon : ':' ∈ req.target := colon_mem_joinHostPort _ _
  rw [h] at hcolon
  exact absurd hcolon (by decide)

end Target

/-! ## The header -/

theorem reader_readFull_append {bytes : Bytes} (h : reader.rest = bytes ++ rest) :
    ∃ r, reader.readFull bytes.length = (.ok bytes, r) ∧ r.rest = rest := by
  obtain ⟨hresult, hrest⟩ := ChunkedReader.readFull_eq reader bytes.length
  have hlen : bytes.length ≤ (bytes ++ rest).length := by
    rw [length_append]
    omega
  rw [h, ChunkedReader.fullOf, if_pos hlen, take_left] at hresult
  rw [h, drop_left] at hrest
  exact ⟨(reader.readFull bytes.length).2, Prod.ext hresult rfl, hrest⟩

/-- **The header is read back**, whatever follows it and in whatever chunks it comes. -/
theorem readTargetAddr_header {target : List Char} (hne : target ≠ [])
    (hshort : target.length ≤ 512) (hbyte : ∀ c ∈ target, c.toNat < 256) {later : Bytes}
    (h : reader.rest = targetHeader target ++ later) :
    ∃ r, readTargetAddr reader = (.ok target, r) ∧ r.rest = later := by
  have hpos := length_pos_iff.mpr hne
  rw [targetHeader, frame, append_assoc] at h
  obtain ⟨r, hread, hrest⟩ := reader_readFull_append h
  obtain ⟨r', hread', hrest'⟩ := reader_readFull_append hrest
  have hlen : getNat (putUint16 (UInt16.ofNat (toBytes target).length)) = target.length := by
    rw [getNat_putUint16, length_toBytes, UInt16.toNat_ofNat']
    exact Nat.mod_eq_of_lt (by omega)
  refine ⟨r', ?_, hrest'⟩
  rw [readTargetAddr, show reader.readFull 2 = _ from hread]
  dsimp only
  rw [hlen, if_neg (by omega), ← length_toBytes target, hread']
  dsimp only
  rw [ofBytes_toBytes hbyte]

/-! ## Both front ends -/

theorem handleGroupSocks5Conn_eq (env : Env) (reader : Reader UInt8) :
    handleGroupSocks5Conn env reader = handleSocks5Conn env reader := by
  unfold handleGroupSocks5Conn handleSocks5Conn
  rcases request reader with (_ | replies) | ⟨conn, target⟩
  · rfl
  · rfl
  · rcases env with ⟨_ | _, _ | _⟩
    · rfl
    · rfl
    · rfl
    · rfl

/-- The server reads the requested target from the header, and the bytes after the request are left
for `relay`. -/
structure PassedOn (req : Request) (rest : Bytes) (handled : Handled) : Prop where
  header : handled.header = some (targetHeader req.target)
  untouched : handled.relayed.map (fun reader => reader.rest) = some rest
  nonempty : req.target ≠ []
  short : req.target.length ≤ 512
  notDNS : req.target ≠ dnsChannelTarget
  decoded : ∀ (reader : Reader UInt8) (later : Bytes),
    reader.rest = targetHeader req.target ++ later →
      ∃ r, readTargetAddr reader = (.ok req.target, r) ∧ r.rest = later

theorem passedOn {req : Request} {replies : Bytes} (hrest : reader.rest = rest) : PassedOn req rest
      ⟨replies, true, some (targetHeader req.target), some reader⟩ where
  header := rfl
  untouched := congrArg some hrest
  nonempty := req.target_ne_nil
  short := Nat.le_trans req.length_target_le (by decide)
  notDNS := req.target_ne_dnsChannelTarget
  decoded := fun _ _ h => readTargetAddr_header req.target_ne_nil
    (Nat.le_trans req.length_target_le (by decide)) req.byte_target h

/-- **Both front ends pass on the same target.** -/
theorem frontEnds_agree (env : Env) (reader : Reader UInt8) :
    handleGroupSocks5Conn env reader = handleSocks5Conn env reader ∧
      ∃ handled, handleSocks5Conn env reader = some handled ∧
        (handled.opened = true ↔
          env.opens = true ∧ ∃ (req : Request) (rest : Bytes), reader.rest = req.encode ++ rest) ∧
        (handled.header.isSome = true ↔ handled.opened = true ∧ env.writes = true) ∧
        ∀ (req : Request) (rest : Bytes), reader.rest = req.encode ++ rest →
          handled.header.isSome = true → PassedOn req rest handled := by
  refine ⟨handleGroupSocks5Conn_eq env reader, ?_⟩
  unfold handleSocks5Conn
  cases hrequest : request reader with
  | error e =>
    -- The input does not begin with a request, or the handler would have read it.
    have hnone : ∀ (req : Request) (rest : Bytes), reader.rest ≠ req.encode ++ rest := by
      intro req rest h
      obtain ⟨conn, hok, -⟩ := request_append h
      rw [hrequest] at hok
      cases hok
    cases e with
    | panic => exact absurd hrequest (request_safe reader)
    | returned replies =>
      simp_all
  | ok read =>
    obtain ⟨conn, target⟩ := read
    obtain ⟨req, rfl, hinput⟩ := request_ok hrequest
    have hbegins : ∃ (req : Request) (rest : Bytes), reader.rest = req.encode ++ rest :=
      ⟨req, conn.reader.rest, hinput⟩
    rcases env with ⟨_ | _, writes⟩
    · simp_all
    · cases writes with
      | false =>
        simp_all
      | true =>
        refine ⟨_, rfl, ⟨fun _ => ⟨rfl, hbegins⟩, fun _ => rfl⟩,
          ⟨fun _ => ⟨rfl, rfl⟩, fun _ => rfl⟩, fun req' rest h _ => ?_⟩
        obtain ⟨conn', hok, hrest, -⟩ := request_append h
        rw [hrequest] at hok
        obtain ⟨rfl, htarget⟩ := Prod.mk.inj (Except.ok.inj hok)
        rw [htarget]
        exact passedOn hrest

end NatProxy.WebRTC.Socks5
