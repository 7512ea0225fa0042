import Mathlib.Data.BitVec

/-!
# STUN messages and NAT types

The addresses, messages and result types of `golib/nat/stun.go`, and the address checks of
`golib/nat/util.go`. The code carries addresses as the strings that `net.IP.String` prints; here
they are the addresses themselves, so that equal strings are equal addresses. A message is what
`stun.Message.Decode` and the attribute getters give.
-/

namespace NatProxy.NatTraversal.STUN

/-! ## Addresses -/

/-- An address as `net.IP` has it; one of IPv6 is none that stands for an IPv4 address. -/
inductive IP where
  | v4 (a : BitVec 32)
  | v6 (a : BitVec 128)
deriving DecidableEq, Repr

def IP.ofOctets (a b c d : BitVec 8) : IP := .v4 (a ++ b ++ c ++ d)

structure IPNet where
  base : BitVec 32
  ones : Nat

def IPNet.ofOctets (a b c d : BitVec 8) (ones : Nat) : IPNet := ⟨a ++ b ++ c ++ d, ones⟩

def IPNet.contains (n : IPNet) : IP → Bool
  | .v4 a => a >>> (32 - n.ones) == n.base >>> (32 - n.ones)
  | .v6 _ => false

def privateNets : List IPNet :=
  [.ofOctets 10 0 0 0 8, .ofOctets 172 16 0 0 12, .ofOctets 192 168 0 0 16,
    .ofOctets 100 64 0 0 10]

def bogonNetsNat : List IPNet :=
  privateNets ++
    [.ofOctets 192 0 2 0 24, .ofOctets 198 51 100 0 24, .ofOctets 203 0 113 0 24,
      .ofOctets 192 0 0 0 24, .ofOctets 198 18 0 0 15, .ofOctets 240 0 0 0 4]

def isPrivateIP (ip : IP) : Bool := privateNets.any (·.contains ip)

namespace IP

def isLoopback : IP → Bool
  | .v4 a => a >>> 24 == 127
  | .v6 a => a == 1

def isMulticast : IP → Bool
  | .v4 a => a >>> 28 == 0xe
  | .v6 a => a >>> 120 == 0xff

def isUnspecified : IP → Bool
  | .v4 a => a == 0
  | .v6 a => a == 0

def isLinkLocalUnicast : IP → Bool
  | .v4 a => a >>> 16 == 0xa9fe
  | .v6 a => a >>> 118 == 0x3fa

def isLinkLocalMulticast : IP → Bool
  | .v4 a => a >>> 8 == 0xe00000
  | .v6 a => a >>> 120 == 0xff && (a >>> 112) &&& 0xf == 2

end IP

def isBogonIP (ip : IP) : Bool :=
  ip.isLoopback || ip.isMulticast || ip.isUnspecified || ip.isLinkLocalUnicast ||
    ip.isLinkLocalMulticast || bogonNetsNat.any (·.contains ip)

structure Endpoint where
  ip : IP
  port : Nat
deriving DecidableEq, Repr

/-! ## Messages -/

/-- A binding response: the transaction and the attributes that are read. -/
structure Message where
  transactionID : Nat
  xorMappedAddress : Option Endpoint := none
  mappedAddress : Option Endpoint := none
  changedAddress : Option Endpoint := none
  otherAddress : Option Endpoint := none
deriving DecidableEq, Repr

/-- What a socket receives: bytes that do not decode, or a message. -/
inductive Datagram where
  | garbage
  | message (m : Message)
deriving DecidableEq, Repr

/-- `getChangedAddr`: CHANGED-ADDRESS (RFC 3489), or else OTHER-ADDRESS (RFC 5780). -/
def getChangedAddr (msg : Message) : Option Endpoint :=
  match msg.changedAddress with
  | some addr => some addr
  | none => msg.otherAddress

/-! ## NAT types -/

inductive NATMapping where
  | unknown
  | endpointIndependent
  | addressDependent
  | addressPortDependent
deriving DecidableEq, Repr

inductive NATFiltering where
  | unknown
  | endpointIndependent
  | addressDependent
  | addressPortDependent
deriving DecidableEq, Repr

structure NATType where
  mapping : NATMapping
  filtering : NATFiltering
  mapped : Endpoint
deriving DecidableEq, Repr

end NatProxy.NatTraversal.STUN
