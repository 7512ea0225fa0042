import NatProxy.Lib.GoURL
import NatProxy.Lib.Json

/-!
# IP literals and host names with ports, as Go reads them

`parseAddr` is `netip.ParseAddr`, as far as what it accepts and the zone go: the value of an address
is left out. `parseIP` is `net.ParseIP` in the same sense, `joinHostPort` and `splitHostPort` are
those of `net`, and `parseIPLiteral` is what `net/url` makes of a host in brackets. `itoa` and
`atoi` are those of `strconv`, for an `int` of 64 bits.

`splitHostPort_joinHostPort`: a host without brackets is split off again.
`parseIPLiteral_doubled`: an address in two pairs of brackets is no host of a URL.
-/

namespace NatProxy.Lib.GoNet

open Text List

/-! ## IP literals -/

def isHexDigit (c : Char) : Bool := (hexValue c).isSome

/-- `parseIPv4Fields`: `pos` fields have been read; `val` and `digLen` are the current one. -/
def parseIPv4Fields (pos val digLen : Nat) : List Char → Bool
  | [] => pos = 3
  | c :: cs =>
    if c.isDigit then
      if digLen = 1 ∧ val = 0 then false
      else if 255 < val * 10 + (c.toNat - '0'.toNat) then false
      else parseIPv4Fields pos (val * 10 + (c.toNat - '0'.toNat)) (digLen + 1) cs
    else if c = '.' then
      -- a field without digits: the first one, one after a dot, or the last one
      if digLen = 0 ∨ cs = [] then false
      else if pos = 3 then false
      else parseIPv4Fields (pos + 1) 0 0 cs
    else false

def parseIPv4 (s : List Char) : Bool := parseIPv4Fields 0 0 0 s

/-- The loop of `parseIPv6`: the groups `left`, whether there was an ellipsis, and what was not
read. -/
def parseGroups : (left : Nat) → (ellipsis : Bool) → List Char → Option (Nat × Bool × List Char)
  | 0, ellipsis, s => some (0, ellipsis, s)
  | left + 1, ellipsis, s =>
    -- four digits at most, so the value of a group always fits
    if s.takeWhile isHexDigit = [] ∨ 4 < (s.takeWhile isHexDigit).length then none
    else
      match s.dropWhile isHexDigit with
      | [] => some (left, ellipsis, [])
      | '.' :: _ =>
        -- an IPv4 address takes the place of the last two groups
        if (ellipsis = false ∧ left ≠ 1) ∨ left = 0 then none
        else if parseIPv4 s then some (left - 1, ellipsis, [])
        else none
      | [':'] => none
      | ':' :: ':' :: rest =>
        if ellipsis = true then none
        else if rest = [] then some (left, true, [])
        else parseGroups left true rest
      | ':' :: rest => parseGroups left ellipsis rest
      | _ => none

/-- An ellipsis stands for at least one group. -/
def complete : Option (Nat × Bool × List Char) → Bool
  | some (left, ellipsis, []) => if 0 < left then ellipsis else !ellipsis
  | _ => false

def isIPv6 : List Char → Bool
  | [':', ':'] => true
  | ':' :: ':' :: s => complete (parseGroups 8 true s)
  | s => complete (parseGroups 8 false s)

inductive Addr where
  | v4
  | v6 (zone : List Char)
deriving DecidableEq, Repr

def parseIPv6 (s : List Char) : Option Addr :=
  if (cut '%' s).2 = some [] then none
  else if isIPv6 (cut '%' s).1 then some (.v6 ((cut '%' s).2.getD []))
  else none

/-- The first of these characters tells the kinds apart. -/
def parseAddr (s : List Char) : Option Addr :=
  match s.find? fun c => c = '.' || c = ':' || c = '%' with
  | some '.' => if parseIPv4 s then some .v4 else none
  | some ':' => parseIPv6 s
  | _ => none

/-- A zone is no part of a `net.IP`. -/
def parseIP (s : List Char) : Bool :=
  match parseAddr s with
  | some .v4 => true
  | some (.v6 zone) => zone = []
  | none => false

/-! ### The characters of an address -/

def addrChar (c : Char) : Bool := isHexDigit c || c = ':' || c = '.'

theorem isHexDigit_of_isDigit {c : Char} (h : c.isDigit = true) : isHexDigit c = true := by
  have hall : ∀ n < 128, (Char.ofNat n).isDigit = true → isHexDigit (Char.ofNat n) = true := by
    decide +kernel
  have hsmall : c.toNat < 128 :=
    toNat_lt_of_isAlphanum (by rw [Char.isAlphanum, h, Bool.or_true])
  have hchar := hall c.toNat hsmall
  rw [Char.ofNat_toNat] at hchar
  exact hchar h

variable {s : List Char}

theorem parseIPv4Fields_chars {pos val digLen : Nat}
    (h : parseIPv4Fields pos val digLen s = true) : ∀ c ∈ s, c.isDigit = true ∨ c = '.' := by
  induction s generalizing pos val digLen with
  | nil => exact fun c hc => (nomatch hc)
  | cons d s ih =>
    rw [parseIPv4Fields] at h
    split_ifs at h with hdigit hzero hlarge hdot hempty hlong
    · intro c hc
      rcases mem_cons.mp hc with rfl | hc
      · exact .inl hdigit
      · exact ih h c hc
    · intro c hc
      rcases mem_cons.mp hc with rfl | hc
      · exact .inr hdot
      · exact ih h c hc

theorem addrChar_of_parseIPv4 (h : parseIPv4 s = true) :
    ∀ c ∈ s, addrChar c = true := by
  intro c hc
  rcases parseIPv4Fields_chars h c hc with hdigit | rfl
  · rw [addrChar, isHexDigit_of_isDigit hdigit]
    rfl
  · decide

theorem addrChar_of_dropWhile
    (h : ∀ c ∈ s.dropWhile isHexDigit, addrChar c = true) : ∀ c ∈ s, addrChar c = true := by
  intro c hc
  rw [← takeWhile_append_dropWhile (p := isHexDigit) (l := s)] at hc
  rcases mem_append.mp hc with hc | hc
  · rw [addrChar, mem_takeWhile_imp hc]
    rfl
  · exact h c hc

theorem addrChar_of_parseGroups {left left' : Nat} {ellipsis ellipsis' : Bool}
    (h : parseGroups left ellipsis s = some (left', ellipsis', [])) :
    ∀ c ∈ s, addrChar c = true := by
  induction left generalizing ellipsis s with
  | zero =>
    cases h
    exact fun c hc => (nomatch hc)
  | succ left ih =>
    rw [parseGroups] at h
    by_cases hdigits : s.takeWhile isHexDigit = [] ∨ 4 < (s.takeWhile isHexDigit).length
    · rw [if_pos hdigits] at h
      cases h
    rw [if_neg hdigits] at h
    -- one case for each character that may follow the digits
    split at h
    · next hrest =>
        apply addrChar_of_dropWhile
        rw [hrest]
        exact fun c hc => (nomatch hc)
    · next hrest =>
        split_ifs at h with hplace hv4
        exact addrChar_of_parseIPv4 hv4
    · cases h
    · next rest hrest =>
        apply addrChar_of_dropWhile
        rw [hrest]
        split_ifs at h with htwice hend
        · subst hend
          exact all_eq_true.mp rfl
        · exact forall_mem_cons.mpr ⟨rfl, forall_mem_cons.mpr ⟨rfl, ih h⟩⟩
    · next rest _ _ hrest =>
        apply addrChar_of_dropWhile
        rw [hrest]
        exact forall_mem_cons.mpr ⟨rfl, ih h⟩
    · cases h

theorem addrChar_of_complete {left : Nat} {ellipsis : Bool}
    (h : complete (parseGroups left ellipsis s) = true) : ∀ c ∈ s, addrChar c = true := by
  cases hgroups : parseGroups left ellipsis s with
  | none =>
    rw [hgroups] at h
    cases h
  | some result =>
    obtain ⟨left', ellipsis', rest⟩ := result
    cases rest with
    | nil => exact addrChar_of_parseGroups hgroups
    | cons c rest =>
      rw [hgroups] at h
      cases h

theorem addrChar_of_isIPv6 (h : isIPv6 s = true) : ∀ c ∈ s, addrChar c = true := by
  unfold isIPv6 at h
  split at h
  · exact all_eq_true.mp rfl
  · exact forall_mem_cons.mpr ⟨rfl, forall_mem_cons.mpr ⟨rfl, addrChar_of_complete h⟩⟩
  · exact addrChar_of_complete h

/-- **The characters of an address without a zone.** -/
theorem addrChar_of_parseAddr {addr : Addr} (h : parseAddr s = some addr)
    (hzone : '%' ∉ s) : ∀ c ∈ s, addrChar c = true := by
  rw [parseAddr] at h
  split at h
  · split_ifs at h with hv4
    exact addrChar_of_parseIPv4 hv4
  · rw [parseIPv6, cut_of_notMem hzone] at h
    dsimp only at h
    rw [if_neg (by simp)] at h
    split_ifs at h with hv6
    exact addrChar_of_isIPv6 hv6
  · cases h

theorem percent_notMem_of_parseIP (h : parseIP s = true) : '%' ∉ s := by
  rw [parseIP] at h
  split at h
  · next haddr =>
      rw [parseAddr] at haddr
      split at haddr
      · split_ifs at haddr with hv4
        intro hmem
        exact absurd (addrChar_of_parseIPv4 hv4 '%' hmem) (by decide)
      · rw [parseIPv6] at haddr
        split_ifs at haddr
        cases haddr
      · cases haddr
  · next zone haddr =>
      rw [parseAddr] at haddr
      split at haddr
      · split_ifs at haddr
        cases haddr
      · rw [parseIPv6] at haddr
        split_ifs at haddr with hempty hv6
        cases haddr
        intro hmem
        -- with a percent sign the zone is what follows it, and not empty
        obtain ⟨front, rest, rfl, hfront⟩ := eq_append_cons_of_mem hmem
        rw [cut_append hfront] at hempty h
        exact hempty (congrArg some (of_decide_eq_true h))
      · cases haddr
  · cases h

theorem addrChar_of_parseIP (h : parseIP s = true) :
    ∀ c ∈ s, addrChar c = true := by
  have hzone := percent_notMem_of_parseIP h
  cases haddr : parseAddr s with
  | none =>
    rw [parseIP, haddr] at h
    cases h
  | some addr => exact addrChar_of_parseAddr haddr hzone

/-! ## Hosts of a URL in brackets -/

/-- A host name in brackets before and from its first `%25`, where the zone begins. -/
def cutZone : List Char → List Char × List Char
  | [] => ([], [])
  | c :: cs =>
    if "%25".toList.isPrefixOf (c :: cs) then ([], c :: cs)
    else (c :: (cutZone cs).1, (cutZone cs).2)

theorem cutZone_of_notMem (h : '%' ∉ s) : cutZone s = (s, []) := by
  induction s with
  | nil => rfl
  | cons c s ih =>
    have hne : ¬ "%25".toList.isPrefixOf (c :: s) = true := by
      intro hfirst
      have hc : '%' = c := by
        have := List.isPrefixOf_iff_prefix.mp hfirst
        exact (cons_prefix_cons.mp this).1
      exact h (hc ▸ mem_cons_self)
    rw [cutZone, if_neg hne, ih fun hmem => h (mem_cons_of_mem c hmem)]

/-- What is between the brackets has to be an IPv6 address. -/
def parseIPLiteral (host : List Char) : Except GoURL.Error (List Char) :=
  match cutLast ']' host with
  | none => .error .ipLiteral
  | some (before, colonPort) =>
    if GoURL.validOptionalPort colonPort = false then .error (.invalidPort colonPort)
    else
      match cutLast '[' before with
      | none => .error .ipLiteral
      | some (_, hostname) =>
        match GoURL.unescape .host (cutZone hostname).1,
          GoURL.unescape .zone (cutZone hostname).2 with
        | .ok hostPart, .ok zonePart =>
          match parseAddr (hostPart ++ zonePart) with
          | some (.v6 _) => .ok ('[' :: (hostPart ++ zonePart) ++ ']' :: colonPort)
          | _ => .error .ipLiteral
        | .error err, _ => .error err
        | _, .error err => .error err

theorem toNat_lt_of_addrChar {c : Char} (h : addrChar c = true) : c.toNat < 128 := by
  rw [addrChar, Bool.or_eq_true, Bool.or_eq_true, decide_eq_true_eq, decide_eq_true_eq] at h
  rcases h with (h | rfl) | rfl
  · obtain ⟨n, hn⟩ := Option.isSome_iff_exists.mp h
    exact toNat_lt_of_hexValue hn
  · decide
  · decide

theorem of_addrChar {p : Char → Bool} {c : Char} (h : addrChar c = true)
    (hall : ∀ n < 128, addrChar (Char.ofNat n) = true → p (Char.ofNat n) = false) :
    p c = false := by
  have hchar := hall c.toNat (toNat_lt_of_addrChar h)
  rw [Char.ofNat_toNat] at hchar
  exact hchar h

theorem addrChar_plain {c : Char} (h : addrChar c = true) :
    GoURL.shouldEscape c .host = false :=
  of_addrChar (p := (GoURL.shouldEscape · .host)) h (by decide +kernel)

section Bracket

variable {address : List Char} (h : parseIP address = true)

include h

theorem notMem_of_parseIP {c : Char} (hc : addrChar c = false) : c ∉ address := by
  intro hmem
  rw [addrChar_of_parseIP h c hmem] at hc
  cases hc

theorem parseAddr_append_bracket : parseAddr (address ++ [']']) = none := by
  have hpercent : '%' ∉ address ++ [']'] := by
    rw [mem_append, not_or]
    exact ⟨notMem_of_parseIP h rfl, by simp⟩
  -- an address that was read would have only characters of addresses
  cases hparse : parseAddr (address ++ [']']) with
  | none => rfl
  | some addr =>
    have hclose := addrChar_of_parseAddr hparse hpercent ']'
      (mem_append_right _ mem_cons_self)
    cases hclose

theorem unescape_append_bracket :
    GoURL.unescape .host (address ++ [']']) = .ok (address ++ [']']) := by
  apply GoURL.unescape_plain
  · exact nofun
  · intro c hc
    rcases mem_append.mp hc with hc | hc
    · exact addrChar_plain (addrChar_of_parseIP h c hc)
    · rw [mem_singleton.mp hc]
      rfl

/-- **An address in two pairs of brackets is no host.** -/
theorem parseIPLiteral_doubled {digits : List Char} (hdigits : digits.all Char.isDigit = true) :
    parseIPLiteral ('[' :: ('[' :: address ++ [']']) ++ ']' :: ':' :: digits) =
      .error .ipLiteral := by
  have hport : ']' ∉ ':' :: digits := by
    intro hmem
    rcases mem_cons.mp hmem with hc | hc
    · exact absurd hc (by decide)
    · exact absurd (all_eq_true.mp hdigits _ hc) (by decide)
  have hopen : '[' ∉ address ++ [']'] := by
    rw [mem_append, not_or]
    exact ⟨notMem_of_parseIP h rfl, by simp⟩
  have hpercent : '%' ∉ address ++ [']'] := by
    rw [mem_append, not_or]
    exact ⟨notMem_of_parseIP h rfl, by simp⟩
  have hvalid : ¬ GoURL.validOptionalPort (':' :: digits) = false := by
    rw [Bool.not_eq_false, GoURL.validOptionalPort, hdigits]
    rfl
  -- the last opening bracket is the inner one
  have hinner : cutLast '[' ('[' :: ('[' :: address ++ [']'])) = some (['['], address ++ [']']) :=
    cutLast_append '[' ['['] hopen
  rw [parseIPLiteral, cutLast_append _ _ hport]
  dsimp only
  rw [if_neg hvalid]
  rw [hinner]
  dsimp only
  rw [cutZone_of_notMem hpercent]
  dsimp only
  rw [unescape_append_bracket h]
  simp only [GoURL.unescape, append_nil, parseAddr_append_bracket h]

end Bracket

/-! ## Hosts with ports -/

def joinHostPort (host port : List Char) : List Char :=
  if ':' ∈ host then '[' :: host ++ ']' :: ':' :: port else host ++ ':' :: port

inductive AddrError where
  | missingPort
  | tooManyColons
  | missingBracket
  | unexpectedBracket (c : Char)
deriving DecidableEq, Repr

/-- The port follows the last colon. A host in brackets ends before it. -/
def splitHostPort (hostport : List Char) : Except AddrError (List Char × List Char) :=
  match cutLast ':' hostport with
  | none => .error .missingPort
  | some (before, port) =>
    if hostport.head? = some '[' then
      match cut ']' hostport with
      | (_, none) => .error .missingBracket
      | (front, some after) =>
        if after = [] then .error .missingPort
        else if front.length + 1 = before.length then
          if '[' ∈ hostport.drop 1 then .error (.unexpectedBracket '[')
          else if ']' ∈ after then .error (.unexpectedBracket ']')
          else .ok (front.drop 1, port)
        else if after.head? = some ':' then .error .tooManyColons
        else .error .missingPort
    else if ':' ∈ before then .error .tooManyColons
    else if '[' ∈ hostport then .error (.unexpectedBracket '[')
    else if ']' ∈ hostport then .error (.unexpectedBracket ']')
    else .ok (before, port)

theorem splitHostPort_append {host port : List Char} (hhost : ∀ c ∈ [':', '[', ']'], c ∉ host)
    (hport : ∀ c ∈ [':', '[', ']'], c ∉ port) :
    splitHostPort (host ++ ':' :: port) = .ok (host, port) := by
  have hbracket : ∀ c ∈ ['[', ']'], c ∉ host ++ ':' :: port := by
    intro c hc
    simp only [mem_append, mem_cons, not_or]
    refine ⟨hhost c (mem_cons_of_mem _ hc), ?_, hport c (mem_cons_of_mem _ hc)⟩
    rintro rfl
    exact absurd hc (by decide)
  have hhead : (host ++ ':' :: port).head? ≠ some '[' := by
    intro hhead
    exact hbracket '[' (by simp) (mem_of_mem_head? hhead)
  rw [splitHostPort, cutLast_append _ _ (hport ':' (by simp))]
  dsimp only
  rw [if_neg hhead, if_neg (hhost ':' (by simp)), if_neg (hbracket '[' (by simp)),
    if_neg (hbracket ']' (by simp))]

theorem splitHostPort_brackets {host port : List Char} (hhost : ∀ c ∈ ['[', ']'], c ∉ host)
    (hport : ∀ c ∈ [':', '[', ']'], c ∉ port) :
    splitHostPort ('[' :: host ++ ']' :: ':' :: port) = .ok (host, port) := by
  have hcut : cut ']' ('[' :: host ++ ']' :: ':' :: port) = ('[' :: host, some (':' :: port)) :=
    cut_append (by simpa using hhost ']' (by simp)) _
  have hlast : cutLast ':' ('[' :: host ++ ']' :: ':' :: port) =
      some ('[' :: host ++ [']'], port) := by
    have happend := cutLast_append ':' ('[' :: host ++ [']']) (hport ':' (by simp))
    rwa [append_assoc] at happend
  have hopen : '[' ∉ ('[' :: host ++ ']' :: ':' :: port).drop 1 := by
    simpa using ⟨hhost '[' (by simp), hport '[' (by simp)⟩
  have hclose : ']' ∉ ':' :: port := by simpa using hport ']' (by simp)
  have hhead : ('[' :: host ++ ']' :: ':' :: port).head? = some '[' := rfl
  rw [splitHostPort, hlast]
  dsimp only
  rw [if_pos hhead, hcut]
  dsimp only
  rw [if_neg (cons_ne_nil _ _), if_pos (by simp), if_neg hopen, if_neg hclose]
  rfl

theorem splitHostPort_joinHostPort {host port : List Char} (hhost : ∀ c ∈ ['[', ']'], c ∉ host)
    (hport : ∀ c ∈ [':', '[', ']'], c ∉ port) :
    splitHostPort (joinHostPort host port) = .ok (host, port) := by
  rw [joinHostPort]
  split_ifs with hcolon
  · exact splitHostPort_brackets hhost hport
  · exact splitHostPort_append (forall_mem_cons.mpr ⟨hcolon, hhost⟩) hport

/-! ## Numbers -/

def itoa (n : Int) : List Char := Json.printInt n

/-- An optional sign and digits, in the range of an `int`. -/
def atoi (s : List Char) : Option Int :=
  let value :=
    match s with
    | '+' :: digits =>
      if Json.isDigits digits then some (Nat.ofDigitChars 10 digits 0 : Int) else none
    | s => Json.parseInt s
  value.filter fun n => -9223372036854775808 ≤ n ∧ n < 9223372036854775808

theorem all_isDigit_itoa (n : Nat) : (itoa n).all Char.isDigit = true := by
  have hdigits := Json.isDigits_toDigits n
  rw [Json.isDigits, Bool.and_eq_true] at hdigits
  exact hdigits.2

theorem itoa_out (n : Nat) : ∀ c ∈ [':', '[', ']'], c ∉ itoa n := by
  intro c hc hmem
  have hdigit := all_eq_true.mp (all_isDigit_itoa n) c hmem
  rw [forall_mem_eq_false (p := Char.isDigit) (by decide) c hc] at hdigit
  cases hdigit

theorem atoi_itoa {n : Nat} (h : n < 9223372036854775808) : atoi (itoa n) = some (n : Int) := by
  have hparse : Json.parseInt (itoa n) = some (n : Int) := Json.parseInt_printInt n
  have hplus : ∀ digits, itoa n ≠ '+' :: digits := by
    intro digits heq
    have hall := all_isDigit_itoa n
    rw [heq] at hall
    exact absurd hall (by simp)
  have hvalue : atoi (itoa n) = (Json.parseInt (itoa n)).filter
      fun n => -9223372036854775808 ≤ n ∧ n < 9223372036854775808 := by
    rw [atoi]
    exact hplus
  rw [hvalue, hparse, Option.filter_some, if_pos]
  rw [decide_eq_true_eq]
  omega

end NatProxy.Lib.GoNet
