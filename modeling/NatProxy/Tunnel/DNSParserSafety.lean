import NatProxy.Lib.GoSlice
import NatProxy.Tunnel.DNSCache

/-!
# The DNS parser on arbitrary bytes

`skipDNSName`, `parseDNSTTL`, `isDNSNXDomain` and `put` of `golib/tunnel/tun.go` with the index and
slice expressions as the code has them: offsets are `int`s, -1 reports malformed data, and an index
that is out of range is a panic, which is none here. None of them panics, whatever the bytes, and
they compute what the total definitions of `DNSCache` compute (`skipDNSName_eq`, `parseDNSTTL_eq`,
`put_eq`). `hostileBytes_safe` adds the ranges of their results.
-/

namespace NatProxy.Tunnel.DNSParserSafety

open Lib
open Tunnel.DNSCache (second dnsCacheMaxTTL dnsCacheNXDomainTTL State)

def skipDNSName (data : Bytes) (offset : Int) : Option Int :=
  if data.length ≤ offset then some (-1)
  else
    match GoSlice.index data offset with
    | none => none
    | some labelLen =>
      if labelLen = 0 then some (offset + 1)
      else if labelLen &&& 0xC0 = 0xC0 then
        if data.length ≤ offset + 1 then some (-1) else some (offset + 2)
      else if labelLen &&& 0xC0 ≠ 0 then some (-1)
      else skipDNSName data (offset + 1 + labelLen.toNat)
termination_by (data.length - offset).toNat

/-- `binary.BigEndian` on `data[lo:lo+width]`; the slice has the width that the decoder asks for. -/
def uintAt (data : Bytes) (lo width : Int) : Option Nat :=
  (GoSlice.slice data lo (lo + width)).map getNat

/-- The loop over the question section; `some none` is the return of `dnsCacheMaxTTL`. -/
def skipQuestions (resp : Bytes) : Nat → Int → Option (Option Int)
  | 0, offset => some (some offset)
  | qdcount + 1, offset =>
    match skipDNSName resp offset with
    | none => none
    | some offset =>
      if offset < 0 then some none
      else if resp.length < offset + 4 then some none
      else skipQuestions resp qdcount (offset + 4)

/-- The loop over the answer and authority records, with `minTTL` and `found`. -/
def minTTL (resp : Bytes) : Nat → Int → Nat × Bool → Option (Nat × Bool)
  | 0, _, acc => some acc
  | count + 1, offset, acc =>
    match skipDNSName resp offset with
    | none => none
    | some offset =>
      if offset < 0 ∨ resp.length < offset + 10 then some acc
      else
        match uintAt resp (offset + 4) 4, uintAt resp (offset + 8) 2 with
        | some ttlSec, some rdLen =>
          if resp.length < offset + 10 + rdLen then some acc
          else
            let ttl := ttlSec * second
            minTTL resp count (offset + 10 + rdLen)
              (if ttl < acc.1 then ttl else acc.1, true)
        | _, _ => none

def parseDNSTTL (resp : Bytes) : Option Nat :=
  if resp.length < 12 then some dnsCacheMaxTTL
  else
    match uintAt resp 4 2, uintAt resp 6 2, uintAt resp 8 2 with
    | some qdcount, some ancount, some nscount =>
      match skipQuestions resp qdcount 12 with
      | none => none
      | some none => some dnsCacheMaxTTL
      | some (some offset) =>
        (minTTL resp (ancount + nscount) offset (dnsCacheMaxTTL, false)).map fun least =>
          if least.2 = false ∨ least.1 = 0 then dnsCacheMaxTTL
          else if dnsCacheMaxTTL < least.1 then dnsCacheMaxTTL
          else least.1
    | _, _, _ => none

def isDNSNXDomain (resp : Bytes) : Option Bool :=
  if resp.length < 4 then some false
  else (GoSlice.index resp 3).map fun b => b &&& 0x0F == 3

def put (s : State) (query response : Bytes) (now : Nat) : Option State :=
  if query.length < 12 ∨ response.length < 12 then some s
  else
    match GoSlice.sliceFrom query 2, parseDNSTTL response, isDNSNXDomain response with
    | some key, some ttl, some nxdomain =>
      let ttl := if nxdomain && dnsCacheNXDomainTTL < ttl then dnsCacheNXDomainTTL else ttl
      some (s.store key response ttl now)
    | _, _, _ => none

/-! ## Names -/

def toInt : Option Nat → Int
  | none => -1
  | some offset => offset

theorem skipDNSName_eq_from (data : Bytes) (fuel : Nat) :
    ∀ offset : Nat, data.length < offset + fuel →
      skipDNSName data offset = some (toInt (DNSCache.skipDNSNameFrom data fuel offset)) := by
  induction fuel with
  | zero =>
    intro offset hfuel
    have hend : (data.length : Int) ≤ offset := by omega
    rw [skipDNSName, if_pos hend]
    rfl
  | succ fuel ih =>
    intro offset hfuel
    rw [skipDNSName, GoSlice.index_natCast, DNSCache.skipDNSNameFrom]
    by_cases hend : data.length ≤ offset
    · rw [if_pos (Int.ofNat_le.mpr hend), List.getElem?_eq_none hend]
      rfl
    · rw [if_neg (mt Int.ofNat_le.mp hend),
        List.getElem?_eq_getElem (Nat.lt_of_not_le hend)]
      dsimp only
      split_ifs with hroot hpointer hcut hcut' hinvalid
      · rfl
      · rfl
      · omega
      · omega
      · rfl
      · rfl
      · exact ih (offset + 1 + data[offset].toNat) (by omega)

/-- **`skipDNSName` does not panic**, and is the total definition. -/
theorem skipDNSName_eq (data : Bytes) (offset : Nat) :
    skipDNSName data offset = some (toInt (DNSCache.skipDNSName data offset)) :=
  skipDNSName_eq_from data (data.length + 1) offset (by omega)

theorem skipDNSNameFrom_range (data : Bytes) (fuel : Nat) :
    ∀ {offset e : Nat}, DNSCache.skipDNSNameFrom data fuel offset = some e →
      offset < e ∧ e ≤ data.length := by
  induction fuel with
  | zero => exact fun h => nomatch h
  | succ fuel ih =>
    intro offset e h
    rw [DNSCache.skipDNSNameFrom] at h
    split at h
    · cases h
    rename_i labelLen hbyte
    grind

theorem skipDNSName_cases (data : Bytes) (offset : Nat) :
    (skipDNSName data offset = some (-1) ∧ DNSCache.skipDNSName data offset = none) ∨
      ∃ e : Nat, skipDNSName data offset = some (e : Int) ∧
        DNSCache.skipDNSName data offset = some e ∧ offset < e ∧ e ≤ data.length := by
  have heq := skipDNSName_eq data offset
  cases hskip : DNSCache.skipDNSName data offset with
  | none =>
    rw [hskip] at heq
    exact .inl ⟨heq, rfl⟩
  | some e =>
    rw [hskip] at heq
    exact .inr ⟨e, heq, rfl, skipDNSNameFrom_range data _ hskip⟩

/-! ## Sections -/

theorem uintAt_eq {data : Bytes} {lo : Int} {n : Nat} (width : Nat) (hlo : lo = n)
    (h : n + width ≤ data.length) :
    uintAt data lo width = some (getNat ((data.drop n).take width)) := by
  subst hlo
  have hslice := GoSlice.slice_natCast h
  rw [Int.natCast_add] at hslice
  rw [uintAt, hslice]
  rfl

theorem skipQuestions_eq (resp : Bytes) (qdcount : Nat) :
    ∀ offset : Nat, skipQuestions resp qdcount offset =
      some ((DNSCache.skipQuestions resp qdcount offset).map fun e => (e : Int)) := by
  induction qdcount with
  | zero => exact fun _ => rfl
  | succ qdcount ih =>
    intro offset
    rw [skipQuestions, DNSCache.skipQuestions]
    rcases skipDNSName_cases resp offset with ⟨hcode, htotal⟩ | ⟨e, hcode, htotal, -, -⟩
    · rw [hcode, htotal]
      rfl
    · grind

theorem minTTL_eq (resp : Bytes) (count : Nat) :
    ∀ (offset : Nat) (acc : Nat × Bool),
      minTTL resp count offset acc = some (DNSCache.minTTL resp count offset acc) := by
  induction count with
  | zero => exact fun _ _ => rfl
  | succ count ih =>
    intro offset acc
    rw [minTTL, DNSCache.minTTL]
    rcases skipDNSName_cases resp offset with ⟨hcode, htotal⟩ | ⟨e, hcode, htotal, -, -⟩
    · rw [hcode, htotal]
      rfl
    · rw [hcode, htotal]
      dsimp only
      by_cases hcut : resp.length < e + 10
      · rw [if_pos hcut, if_pos (.inr (by omega))]
      · have httl : uintAt resp ((e : Int) + 4) 4 = some (DNSCache.uint32At resp (e + 4)) :=
          uintAt_eq 4 (Int.natCast_add e 4).symm (by omega)
        have hlen : uintAt resp ((e : Int) + 8) 2 = some (DNSCache.uint16At resp (e + 8)) :=
          uintAt_eq 2 (Int.natCast_add e 8).symm (by omega)
        rw [if_neg hcut, if_neg (by omega), httl, hlen]
        dsimp only
        by_cases hdata : resp.length < e + 10 + DNSCache.uint16At resp (e + 8)
        · rw [if_pos hdata, if_pos (by omega)]
        · rw [if_neg hdata, if_neg (by omega)]
          exact ih (e + 10 + DNSCache.uint16At resp (e + 8)) _

/-! ## Responses -/

/-- **`parseDNSTTL` does not panic**, and is the total definition. -/
theorem parseDNSTTL_eq (resp : Bytes) : parseDNSTTL resp = some (DNSCache.parseDNSTTL resp) := by
  rw [parseDNSTTL, DNSCache.parseDNSTTL]
  by_cases hshort : resp.length < 12
  · rw [if_pos hshort, if_pos hshort]
  · have hqd : uintAt resp 4 2 = some (DNSCache.uint16At resp 4) := uintAt_eq 2 rfl (by omega)
    have han : uintAt resp 6 2 = some (DNSCache.uint16At resp 6) := uintAt_eq 2 rfl (by omega)
    have hns : uintAt resp 8 2 = some (DNSCache.uint16At resp 8) := uintAt_eq 2 rfl (by omega)
    have hquestions := skipQuestions_eq resp (DNSCache.uint16At resp 4) 12
    rw [if_neg hshort, if_neg hshort, hqd, han, hns]
    dsimp only
    rw [show skipQuestions resp (DNSCache.uint16At resp 4) 12 = _ from hquestions]
    cases DNSCache.skipQuestions resp (DNSCache.uint16At resp 4) 12 with
    | none => rfl
    | some offset =>
      show (minTTL resp _ (offset : Int) _).map _ = _
      rw [minTTL_eq]
      rfl

theorem isDNSNXDomain_eq (resp : Bytes) :
    isDNSNXDomain resp = some (DNSCache.isDNSNXDomain resp) := by
  rw [isDNSNXDomain, DNSCache.isDNSNXDomain]
  by_cases hshort : resp.length < 4
  · rw [if_pos hshort, List.getElem?_eq_none (by omega)]
  · rw [if_neg hshort, show GoSlice.index resp 3 = _ from GoSlice.index_natCast resp 3,
      List.getElem?_eq_getElem (by omega)]
    rfl

/-- **`put` does not panic**, and is the total definition. -/
theorem put_eq (s : State) (query response : Bytes) (now : Nat) :
    put s query response now = some (s.put query response now) := by
  rw [put, State.put]
  by_cases hshort : query.length < 12 ∨ response.length < 12
  · rw [if_pos hshort, if_pos hshort]
  · have hlen : 2 ≤ query.length := by omega
    have hkey : GoSlice.sliceFrom query 2 = some (DNSCache.keyOf query) :=
      GoSlice.sliceFrom_natCast hlen
    rw [if_neg hshort, if_neg hshort, hkey, parseDNSTTL_eq, isDNSNXDomain_eq]
    rfl

theorem dnsCacheMaxTTL_pos : 0 < dnsCacheMaxTTL := by decide

theorem parseDNSTTL_range (resp : Bytes) :
    0 < DNSCache.parseDNSTTL resp ∧ DNSCache.parseDNSTTL resp ≤ dnsCacheMaxTTL := by
  have hmax : 0 < dnsCacheMaxTTL ∧ dnsCacheMaxTTL ≤ dnsCacheMaxTTL :=
    ⟨dnsCacheMaxTTL_pos, Nat.le_refl _⟩
  rw [DNSCache.parseDNSTTL]
  split
  · exact hmax
  · grind

/-- **The parser is safe on hostile bytes.** -/
theorem hostileBytes_safe :
    (∀ (data : Bytes) (offset : Nat), ∃ e : Int, skipDNSName data offset = some e ∧
        (e = -1 ∨ (offset < e ∧ e ≤ data.length))) ∧
      (∀ resp : Bytes, ∃ ttl, parseDNSTTL resp = some ttl ∧ 0 < ttl ∧ ttl ≤ 300 * second) ∧
      (∀ (s : State) (query response : Bytes) (now : Nat),
        put s query response now = some (s.put query response now)) := by
  refine ⟨fun data offset => ?_, fun resp => ?_, put_eq⟩
  · grind [skipDNSName_cases, Int.ofNat_le.mpr]
  · exact ⟨DNSCache.parseDNSTTL resp, parseDNSTTL_eq resp, parseDNSTTL_range resp⟩

end NatProxy.Tunnel.DNSParserSafety
