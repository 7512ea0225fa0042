import Mathlib.Data.Nat.Digits.Defs
import NatProxy.Lib.BigEndian
import NatProxy.Lib.Text

/-!
# The text of an IP address

`ipString` is `net.IP.String`: dotted decimal for an IPv4 address, also in the form that is mapped
into IPv6; groups of hexadecimal digits for any other IPv6 address, where the first of the longest
runs of at least two zero groups is written `::`. The text of a valid address is short, and all its
characters are ASCII (`length_ipString_le`, `ascii_ipString`).
-/

namespace NatProxy.Lib.GoIP

open Text List

def decimal (n : Nat) : List Char := Nat.toDigits 10 n

def dotted (ip : Bytes) : List Char :=
  ['.'].intercalate (ip.map fun b => decimal b.toNat)

def lowerHex (n : Nat) : Char := "0123456789abcdef".toList.getD n '0'

def group (v : Nat) : List Char :=
  ([v / 4096 % 16, v / 256 % 16, v / 16 % 16].dropWhile (· == 0) ++ [v % 16]).map lowerHex

def groups : Bytes → List Nat
  | hi :: lo :: rest => (hi.toNat * 256 + lo.toNat) :: groups rest
  | _ => []

/-- The length of the run of zero groups that starts at `i`. -/
def runAt (gs : List Nat) (i : Nat) : Nat := ((gs.drop i).takeWhile (· == 0)).length

/-- Start and length of the first longest run of at least two zero groups; length 0 if there is
none. -/
def longestRun (gs : List Nat) : Nat × Nat :=
  (range gs.length).foldl
    (fun best i => if 2 ≤ runAt gs i ∧ best.2 < runAt gs i then (i, runAt gs i) else best) (0, 0)

def colons (gs : List Nat) : List Char := [':'].intercalate (gs.map group)

def ipv6String (gs : List Nat) : List Char :=
  let run := longestRun gs
  if run.2 = 0 then colons gs
  else colons (gs.take run.1) ++ ':' :: ':' :: colons (gs.drop (run.1 + run.2))

/-- The first twelve bytes of an IPv4 address that is mapped into IPv6. -/
def mappedPrefix : Bytes := replicate 10 0 ++ [0xff, 0xff]

def hexBytes (ip : Bytes) : List Char :=
  ip.flatMap fun b => [lowerHex (b.toNat / 16), lowerHex (b.toNat % 16)]

def ipString (ip : Bytes) : List Char :=
  if ip.length = 0 then "<nil>".toList
  else if ip.length = 4 then dotted ip
  else if ip.length = 16 then
    if ip.take 12 = mappedPrefix then dotted (ip.drop 12) else ipv6String (groups ip)
  else '?' :: hexBytes ip

/-! ## Length -/

theorem length_intercalate_le {sep : Char} {n : Nat} {ls : List (List Char)}
    (h : ∀ l ∈ ls, l.length ≤ n) : ([sep].intercalate ls).length ≤ (n + 1) * ls.length := by
  induction ls with
  | nil => exact Nat.le_refl _
  | cons l ls ih =>
    have hl := h l mem_cons_self
    have hls := ih fun m hm => h m (mem_cons_of_mem l hm)
    have hproduct : (n + 1) * (ls.length + 1) = (n + 1) * ls.length + (n + 1) := rfl
    by_cases hnil : ls = []
    · subst hnil
      rw [intercalate_singleton, length_cons, hproduct]
      omega
    · rw [intercalate_cons_of_ne_nil hnil, length_append, length_append,
        length_singleton, length_cons, hproduct]
      omega

theorem length_decimal_le {n e : Nat} (he : 0 < e) (h : n < 10 ^ e) : (decimal n).length ≤ e :=
  Nat.toDigits_length 10 n e he h

theorem length_dotted_le (ip : Bytes) : (dotted ip).length ≤ 4 * ip.length := by
  have hfields : ∀ l ∈ ip.map fun b => decimal b.toNat, l.length ≤ 3 := by
    intro l hl
    obtain ⟨b, -, rfl⟩ := mem_map.mp hl
    exact length_decimal_le (by decide) (Nat.lt_of_lt_of_le b.toNat_lt (by decide))
  have hlen : (['.'].intercalate _).length ≤ _ := length_intercalate_le hfields
  rwa [length_map] at hlen

theorem length_group_le (v : Nat) : (group v).length ≤ 4 := by
  have hdrop : ([v / 4096 % 16, v / 256 % 16, v / 16 % 16].dropWhile (· == 0)).length ≤ 3 :=
    (dropWhile_suffix (· == 0)).length_le
  rw [group, length_map, length_append]
  exact Nat.add_le_add_right hdrop 1

theorem length_colons_le (gs : List Nat) : (colons gs).length ≤ 5 * gs.length := by
  have hgroups : ∀ l ∈ gs.map group, l.length ≤ 4 := by
    intro l hl
    obtain ⟨v, -, rfl⟩ := mem_map.mp hl
    exact length_group_le v
  have hlen : ([':'].intercalate _).length ≤ _ := length_intercalate_le hgroups
  rwa [length_map] at hlen

theorem length_groups_le (ip : Bytes) : (groups ip).length ≤ ip.length := by
  induction ip using groups.induct with
  | case1 hi lo rest ih =>
    rw [groups, length_cons, length_cons, length_cons]
    omega
  | case2 ip hshort =>
    rw [groups.eq_2 ip hshort]
    exact Nat.zero_le _

theorem length_ipv6String_le (gs : List Nat) : (ipv6String gs).length ≤ 10 * gs.length + 2 := by
  rw [ipv6String]
  split
  · have hall := length_colons_le gs
    omega
  · have hfront := length_colons_le (gs.take (longestRun gs).1)
    have hback := length_colons_le (gs.drop ((longestRun gs).1 + (longestRun gs).2))
    rw [length_take] at hfront
    rw [length_drop] at hback
    rw [length_append, length_cons, length_cons]
    omega

theorem length_ipString_le {ip : Bytes} (h : ip.length = 4 ∨ ip.length = 16) :
    (ipString ip).length ≤ 200 := by
  have hdotted := length_dotted_le ip
  have hmapped := length_dotted_le (ip.drop 12)
  have hsix := length_ipv6String_le (groups ip)
  have hgroups := length_groups_le ip
  rw [length_drop] at hmapped
  rw [ipString]
  split_ifs with hnil hfour hsixteen hprefix
  · omega
  · omega
  · omega
  · omega
  · omega

/-! ## Characters -/

theorem ascii_of_isDigit {c : Char} (h : c.isDigit = true) : c.toNat < 128 := by
  rw [Char.isDigit, Bool.and_eq_true, decide_eq_true_iff, decide_eq_true_iff] at h
  have hle : c.toNat ≤ 57 := h.2
  omega

theorem ascii_decimal {n : Nat} : ∀ c ∈ decimal n, c.toNat < 128 := fun _ hc =>
  ascii_of_isDigit (Nat.isDigit_of_mem_toDigits (by decide) (by decide) hc)

theorem ascii_lowerHex (n : Nat) : (lowerHex n).toNat < 128 := by
  have hdigits : ∀ d : Fin 16, (lowerHex d.val).toNat < 128 := by decide
  by_cases hn : n < 16
  · exact hdigits ⟨n, hn⟩
  · have hlen : "0123456789abcdef".toList.length ≤ n := Nat.le_of_not_lt hn
    rw [lowerHex, getD_eq_getElem?_getD, getElem?_eq_none hlen]
    decide

theorem ascii_dotted (ip : Bytes) : ∀ c ∈ dotted ip, c.toNat < 128 := by
  intro c hc
  obtain rfl | ⟨l, hl, hcl⟩ := mem_intercalate hc
  · decide
  · obtain ⟨b, -, rfl⟩ := mem_map.mp hl
    exact ascii_decimal c hcl

theorem ascii_colons (gs : List Nat) : ∀ c ∈ colons gs, c.toNat < 128 := by
  intro c hc
  obtain rfl | ⟨l, hl, hcl⟩ := mem_intercalate hc
  · decide
  · obtain ⟨v, -, rfl⟩ := mem_map.mp hl
    obtain ⟨n, -, rfl⟩ := mem_map.mp hcl
    exact ascii_lowerHex n

theorem ascii_ipv6String (gs : List Nat) : ∀ c ∈ ipv6String gs, c.toNat < 128 := by
  intro c hc
  rw [ipv6String] at hc
  split at hc
  · exact ascii_colons gs c hc
  · rcases mem_append.mp hc with hc | hc
    · exact ascii_colons _ c hc
    · rcases mem_cons.mp hc with rfl | hc
      · decide
      · rcases mem_cons.mp hc with rfl | hc
        · decide
        · exact ascii_colons _ c hc

theorem ascii_ipString {ip : Bytes} (h : ip.length = 4 ∨ ip.length = 16) :
    ∀ c ∈ ipString ip, c.toNat < 128 := by
  intro c hc
  rw [ipString, if_neg (by omega)] at hc
  split_ifs at hc with hfour hsixteen hprefix
  · exact ascii_dotted ip c hc
  · exact ascii_dotted _ c hc
  · exact ascii_ipv6String _ c hc
  · omega

end NatProxy.Lib.GoIP
