import NatProxy.Lib.GoURL
import Mathlib.Data.List.Sort

/-!
# Escaped parts of a URL, and its query

What `net/url` escapes it reads back (`unescape_escape`); in a host that is so only if nothing but
percent signs and what is no ASCII has to be escaped. `Values` are the values of a query:
`Values.encode` is `Values.Encode` and `parseQuery` is `ParseQuery` without its error, as
`URL.Query` uses it.

`parseAuthority_userText` says what a user and a host are read as, and `get_parseQuery_encode` that
each key of a query has its value again.
-/

namespace NatProxy.Lib.GoURL

open Text List

/-! ## Escapes that are read back -/

/-- The escapes of these bytes are read in this part. -/
def Readable (mode : Encoding) (c : Char) : Prop :=
  mode ≠ .zone ∧ (mode = .host → shouldEscape c .host = true → c = '%' ∨ 128 ≤ c.toNat)

variable {mode : Encoding}

theorem readable_of_ne (hhost : mode ≠ .host) (hzone : mode ≠ .zone) (c : Char) : Readable mode c :=
  ⟨hzone, fun h => absurd h hhost⟩

variable {c : Char} {s : List Char}

theorem unescapeByte_upperHex (hbyte : c.toNat < 256)
    (hescape : shouldEscape c mode = true) (h : Readable mode c) :
    unescapeByte mode (upperHex (c.toNat / 16)) (upperHex (c.toNat % 16)) = .ok c := by
  have hhigh : c.toNat / 16 < 16 := by omega
  have hlow : c.toNat % 16 < 16 := by omega
  have hvalue : Char.ofNat (c.toNat / 16 * 16 + c.toNat % 16) = c := by
    rw [Nat.div_add_mod']
    exact Char.ofNat_toNat c
  rw [unescapeByte, hexValue_upperHex _ hhigh, hexValue_upperHex _ hlow]
  dsimp only
  rw [hvalue, if_neg, if_neg (fun hz => h.1 hz.1)]
  -- a host has only escapes of percent signs and of what is no ASCII
  rintro ⟨hmode, hsmall, hne⟩
  subst hmode
  rcases h.2 rfl hescape with rfl | hlarge
  · exact hne (by decide)
  · omega

theorem unescape_escapeByte (hbyte : c.toNat < 256) (h : Readable mode c) (rest : List Char) :
    unescape mode (escapeByte mode c ++ rest) = consByte c (unescape mode rest) := by
  cases hescape : shouldEscape c mode with
  | false =>
    have hpercent : c ≠ '%' := by
      rintro rfl
      rw [shouldEscape_percent] at hescape
      cases hescape
    have hplus : ¬ (c = '+' ∧ mode = .queryComponent) := by
      rintro ⟨rfl, rfl⟩
      exact absurd hescape (by decide)
    rw [escapeByte, hescape]
    show unescape mode (c :: rest) = _
    rw [unescape.eq_def]
    simp only [hpercent, hescape, hplus, if_false, Bool.false_eq_true, and_false]
  | true =>
    rw [escapeByte, hescape, if_pos rfl]
    by_cases hblank : c = ' ' ∧ mode = .queryComponent
    · obtain ⟨rfl, rfl⟩ := hblank
      rw [if_pos ⟨rfl, rfl⟩, singleton_append, unescape.eq_def]
      simp
    · rw [if_neg hblank]
      show unescape mode ('%' :: _ :: _ :: rest) = _
      rw [unescape.eq_def]
      simp only [if_true, unescapeByte_upperHex hbyte hescape h]

/-- **What was escaped is read back.** -/
theorem unescape_escape (hbytes : ∀ c ∈ s, c.toNat < 256)
    (h : ∀ c ∈ s, Readable mode c) : unescape mode (escape mode s) = .ok s := by
  induction s with
  | nil => rfl
  | cons c s ih =>
    have hs := ih (fun d hd => hbytes d (mem_cons_of_mem c hd))
      (fun d hd => h d (mem_cons_of_mem c hd))
    have hc := unescape_escapeByte (hbytes c mem_cons_self) (h c mem_cons_self)
      (escape mode s)
    show unescape mode (escapeByte mode c ++ escape mode s) = _
    rw [hc, hs]
    rfl

theorem mem_escape (h : c ∈ escape mode s) :
    shouldEscape c mode = false ∨ c = '%' ∨ (c = '+' ∧ mode = .queryComponent) := by
  have hhex (n : Nat) : shouldEscape (upperHex n) mode = false := by
    rw [shouldEscape.eq_def, if_pos (isAlphanum_upperHex n)]
  obtain ⟨d, -, hd⟩ := mem_flatMap.mp h
  rw [escapeByte] at hd
  split_ifs at hd with hescape hblank
  · rw [mem_singleton] at hd
    exact .inr (.inr ⟨hd, hblank.2⟩)
  · grind
  · rw [mem_singleton] at hd
    subst hd
    rw [Bool.not_eq_true] at hescape
    exact .inl hescape

/-- A character that only its escape stands for. -/
def onlyEscaped (mode : Encoding) (c : Char) : Bool :=
  shouldEscape c mode && c != '%' && c != '+'

theorem notMem_escape (h : onlyEscaped mode c = true) (s : List Char) : c ∉ escape mode s := by
  rw [onlyEscaped, Bool.and_eq_true, Bool.and_eq_true, bne_iff_ne, bne_iff_ne] at h
  obtain ⟨⟨hescape, hpercent⟩, hplus⟩ := h
  intro hmem
  rcases mem_escape hmem with hc | hc | ⟨hc, -⟩
  · rw [hescape] at hc
    cases hc
  · exact hpercent hc
  · exact hplus hc

theorem mem_of_mem_escape (h : c ∈ escape mode s)
    (hout : (c.isAlphanum || c = '%' || c = '+') = false) : c ∈ s := by
  rw [Bool.or_eq_false_iff, Bool.or_eq_false_iff, decide_eq_false_iff_not,
    decide_eq_false_iff_not] at hout
  obtain ⟨⟨halnum, hpercent⟩, hplus⟩ := hout
  have hhex (n : Nat) : c ≠ upperHex n := by
    rintro rfl
    rw [isAlphanum_upperHex] at halnum
    cases halnum
  obtain ⟨d, hd, hc⟩ := mem_flatMap.mp h
  rw [escapeByte] at hc
  split_ifs at hc
  · exact absurd (mem_singleton.mp hc) hplus
  · simp_all
  · rw [mem_singleton] at hc
    rwa [hc]

theorem isControl_of_mem_escape (h : c ∈ escape mode s) : isControl c = false := by
  rcases mem_escape h with hc | rfl | ⟨rfl, -⟩
  · exact isControl_plain hc
  · decide
  · decide

theorem escape_eq_nil_iff : escape mode s = [] ↔ s = [] := by
  cases s with
  | nil => exact ⟨fun _ => rfl, fun _ => rfl⟩
  | cons c s =>
    have hne : escapeByte mode c ≠ [] := by
      rw [escapeByte]
      split_ifs <;> exact cons_ne_nil _ _
    simp [escape, hne]

/-! ## Users and fragments -/

theorem parseUserinfo_string {ui : Userinfo} (hname : ∀ c ∈ ui.username, c.toNat < 256)
    (hpassword : ∀ password ∈ ui.password, ∀ c ∈ password, c.toNat < 256) :
    parseUserinfo ui.string = .ok ui := by
  have hvalid : ∀ text, validUserinfo (escape .userPassword text) = true := by
    have hplain : ∀ n < 128, shouldEscape (Char.ofNat n) .userPassword = false →
        ((Char.ofNat n).isAlphanum || Char.ofNat n ∈ "-._:~!$&'()*+,;=%@".toList) = true := by
      decide +kernel
    intro text
    rw [validUserinfo, all_eq_true]
    intro c hc
    rcases mem_escape hc with hplainChar | rfl | ⟨-, hmode⟩
    · have hchar := hplain c.toNat (toNat_lt_plain hplainChar)
      rw [Char.ofNat_toNat] at hchar
      exact hchar hplainChar
    · decide
    · cases hmode
  have hcolon : ∀ text, ':' ∉ escape .userPassword text := notMem_escape rfl
  have hread : ∀ {text : List Char}, (∀ c ∈ text, c.toNat < 256) →
      unescape .userPassword (escape .userPassword text) = .ok text := fun hbytes =>
    unescape_escape hbytes fun c _ => readable_of_ne (by decide) (by decide) c
  obtain ⟨username, password⟩ := ui
  cases password with
  | none =>
    rw [parseUserinfo, Userinfo.string, if_neg (not_not.mpr (hvalid username)),
      cut_of_notMem (hcolon username)]
    simp only [hread hname]
  | some password =>
    have hboth : validUserinfo (escape .userPassword username ++
        ':' :: escape .userPassword password) = true := by
      have hleft := hvalid username
      have hright := hvalid password
      rw [validUserinfo] at hleft hright ⊢
      rw [all_append, all_cons, hleft, hright]
      decide
    rw [parseUserinfo, Userinfo.string, if_neg (not_not.mpr hboth), cut_append (hcolon username)]
    simp only [hread hname, hread (hpassword password rfl)]

theorem setFragment_escape (u : URL) {fragment : List Char}
    (hbytes : ∀ c ∈ fragment, c.toNat < 256) :
    u.setFragment (escape .fragment fragment) =
      .ok { u with fragment := fragment, rawFragment := [] } := by
  have hread : unescape .fragment (escape .fragment fragment) = .ok fragment :=
    unescape_escape hbytes fun c _ => readable_of_ne (by decide) (by decide) c
  rw [URL.setFragment, hread]
  simp only [if_true]

/-! ## Users before a host -/

section Authority

variable {ipLiteral : List Char → Except Error (List Char)} {host : List Char}

/-- A user as it stands before the host. -/
def userText : Option Userinfo → List Char
  | some ui => ui.string ++ ['@']
  | none => []

structure ByteUser (user : Option Userinfo) : Prop where
  name : ∀ ui ∈ user, ∀ c ∈ ui.username, c.toNat < 256
  password : ∀ ui ∈ user, ∀ password ∈ ui.password, ∀ c ∈ password, c.toNat < 256

variable {user : Option Userinfo}

theorem mem_userText (h : c ∈ userText user) :
    c = '@' ∨ c = ':' ∨ ∃ text, c ∈ escape .userPassword text := by
  match user with
  | none => cases h
  | some ⟨username, none⟩ =>
    simp only [userText, Userinfo.string, mem_append, mem_singleton] at h
    exact h.elim (fun hmem => .inr (.inr ⟨_, hmem⟩)) .inl
  | some ⟨username, some password⟩ =>
    simp only [userText, Userinfo.string, mem_append, mem_cons, not_mem_nil, or_false] at h
    rcases h with (h | h | h) | h
    · exact .inr (.inr ⟨_, h⟩)
    · exact .inr (.inl h)
    · exact .inr (.inr ⟨_, h⟩)
    · exact .inl h

theorem notMem_userHost (huser : onlyEscaped .userPassword c = true)
    (hhost : onlyEscaped .host c = true) (hat : c ≠ '@') (hcolon : c ≠ ':') :
    c ∉ userText user ++ escape .host host := by
  refine not_mem_append (fun hmem => ?_) (notMem_escape hhost host)
  rcases mem_userText hmem with h | h | ⟨text, h⟩
  · exact hat h
  · exact hcolon h
  · exact notMem_escape huser text h

theorem parseAuthority_userText (h : ByteUser user) :
    parseAuthority ipLiteral (userText user ++ escape .host host) =
      (parseHost ipLiteral (escape .host host)).map fun host => (user, host) := by
  have hat : '@' ∉ escape .host host := notMem_escape rfl host
  cases user with
  | none =>
    rw [userText, nil_append, parseAuthority, cutLast_of_notMem hat]
    dsimp only
    cases parseHost ipLiteral (escape .host host) <;> rfl
  | some ui =>
    rw [userText, append_assoc, singleton_append, parseAuthority, cutLast_append _ _ hat]
    dsimp only
    rw [parseUserinfo_string (h.name ui rfl) (h.password ui rfl)]
    cases parseHost ipLiteral (escape .host host) <;> rfl

end Authority

/-! ## Queries -/

/-- The values of a query by key; the values of one key are in order. -/
abbrev Values := List (List Char × List Char)

namespace Values

def get (v : Values) (key : List Char) : List Char :=
  ((v.find? fun p => p.1 = key).map Prod.snd).getD []

def set (v : Values) (key value : List Char) : Values :=
  v.filter (fun p => p.1 ≠ key) ++ [(key, value)]

def pair (p : List Char × List Char) : List Char :=
  escape .queryComponent p.1 ++ '=' :: escape .queryComponent p.2

def keyLE : List Char → List Char → Bool
  | [], _ => true
  | _ :: _, [] => false
  | a :: as, b :: bs => decide (a.toNat < b.toNat) || (a == b && keyLE as bs)

theorem keyLE_refl (key : List Char) : keyLE key key = true := by
  induction key with
  | nil => rfl
  | cons c key ih => rw [keyLE, ih, beq_self_eq_true, Bool.and_self, Bool.or_true]

/-- The keys are in order, and the values of each key in theirs. -/
def sorted (v : Values) : Values := v.insertionSort fun p q => keyLE p.1 q.1 = true

def encode (v : Values) : List Char := ['&'].intercalate (v.sorted.map pair)

end Values

/-- A part of a query. One that cannot be read is left out. -/
def parsePair (part : List Char) : Option (List Char × List Char) :=
  if ';' ∈ part ∨ part = [] then none
  else
    match unescape .queryComponent (cut '=' part).1,
      unescape .queryComponent ((cut '=' part).2.getD []) with
    | .ok key, .ok value => some (key, value)
    | _, _ => none

def parseQuery (query : List Char) : Values := (query.splitOn '&').filterMap parsePair

/-- The keys and values are strings of bytes. -/
def Values.Bytes (v : Values) : Prop :=
  ∀ p ∈ v, (∀ c ∈ p.1, c.toNat < 256) ∧ ∀ c ∈ p.2, c.toNat < 256

variable {v : Values}

theorem Values.get_set (v : Values) (key value key' : List Char) :
    (v.set key value).get key' = if key' = key then value else v.get key' := by
  simp only [Values.get, Values.set, find?_append, find?_filter, decide_eq_true_eq]
  by_cases hkey : key' = key
  · grind
  · grind

@[simp] theorem Values.get_nil (key : List Char) : Values.get [] key = [] := rfl

theorem Values.set_ne (v : Values) (key value : List Char) : v.set key value ≠ [] :=
  append_ne_nil_of_right_ne_nil _ (cons_ne_nil _ _)

theorem Values.Bytes.set (h : v.Bytes) {key value : List Char}
    (hkey : ∀ c ∈ key, c.toNat < 256) (hvalue : ∀ c ∈ value, c.toNat < 256) :
    (v.set key value).Bytes := by
  intro p hp
  rcases mem_append.mp hp with hp | hp
  · exact h p (mem_of_mem_filter hp)
  · obtain rfl := mem_singleton.mp hp
    exact ⟨hkey, hvalue⟩

theorem parsePair_pair {p : List Char × List Char} (hkey : ∀ c ∈ p.1, c.toNat < 256)
    (hvalue : ∀ c ∈ p.2, c.toNat < 256) : parsePair (Values.pair p) = some p := by
  have hread {s : List Char} (hs : ∀ c ∈ s, c.toNat < 256) :
      unescape .queryComponent (escape .queryComponent s) = .ok s :=
    unescape_escape hs fun c _ => readable_of_ne (by decide) (by decide) c
  have hsemicolon : ';' ∉ Values.pair p := by
    simp only [Values.pair, mem_append, mem_cons, not_or]
    exact ⟨notMem_escape rfl p.1, by decide, notMem_escape rfl p.2⟩
  have hne : Values.pair p ≠ [] := by simp [Values.pair]
  have hequals : '=' ∉ escape .queryComponent p.1 := notMem_escape rfl p.1
  rw [parsePair, if_neg (not_or.mpr ⟨hsemicolon, hne⟩), Values.pair, cut_append hequals]
  simp only [Option.getD_some, hread hkey, hread hvalue]

theorem Values.notMem_encode (h : onlyEscaped .queryComponent c = true)
    (hamp : c ≠ '&') (hequals : c ≠ '=') : c ∉ v.encode := by
  intro hmem
  rcases mem_intercalate hmem with hc | ⟨part, hpart, hc⟩
  · exact hamp hc
  · obtain ⟨p, -, rfl⟩ := mem_map.mp hpart
    rcases mem_append.mp hc with hc | hc
    · exact notMem_escape h _ hc
    · rcases mem_cons.mp hc with hc | hc
      · exact hequals hc
      · exact notMem_escape h _ hc

theorem Values.isControl_of_mem_encode (h : c ∈ v.encode) :
    isControl c = false := by
  rcases mem_intercalate h with rfl | ⟨part, hpart, hc⟩
  · decide
  · obtain ⟨p, -, rfl⟩ := mem_map.mp hpart
    rcases mem_append.mp hc with hc | hc
    · exact isControl_of_mem_escape hc
    · rcases mem_cons.mp hc with rfl | hc
      · decide
      · exact isControl_of_mem_escape hc

theorem Values.encode_ne (h : v ≠ []) : v.encode ≠ [] := by
  obtain ⟨p, hp⟩ := exists_mem_of_ne_nil v h
  have hpart : Values.pair p ∈ v.sorted.map Values.pair :=
    mem_map_of_mem ((mem_insertionSort _).mpr hp)
  have hequals : '=' ∈ Values.pair p := mem_append_right _ mem_cons_self
  exact ne_nil_of_mem (mem_intercalate_of_mem '&' hpart hequals)

theorem parseQuery_encode (h : v.Bytes) (hne : v ≠ []) :
    parseQuery v.encode = v.sorted := by
  have hsplit : v.encode.splitOn '&' = v.sorted.map Values.pair := by
    apply splitOn_intercalate
    · intro part hpart
      obtain ⟨p, -, rfl⟩ := mem_map.mp hpart
      simp only [Values.pair, mem_append, mem_cons, not_or]
      exact ⟨notMem_escape rfl p.1, by decide, notMem_escape rfl p.2⟩
    · rw [ne_eq, map_eq_nil_iff, Values.sorted, ← length_eq_zero_iff,
        length_insertionSort, length_eq_zero_iff]
      exact hne
  rw [parseQuery, hsplit, filterMap_map]
  have hread : ∀ p ∈ v.sorted, (parsePair ∘ Values.pair) p = some p := by
    intro p hp
    obtain ⟨hkey, hvalue⟩ := h p ((mem_insertionSort _).mp hp)
    exact parsePair_pair hkey hvalue
  rw [filterMap_congr hread, filterMap_some]

theorem Values.get_sorted (v : Values) (key : List Char) :
    v.sorted.get key = v.get key := by
  have hsorted : (v.filter fun p => p.1 = key).Pairwise
      fun p q => keyLE p.1 q.1 = true := by
    rw [pairwise_iff_forall_sublist]
    intro p q hpq
    have hp := of_mem_filter (hpq.subset mem_cons_self)
    have hq := of_mem_filter (hpq.subset (mem_cons_of_mem p mem_cons_self))
    rw [decide_eq_true_eq] at hp hq
    exact (hp.trans hq.symm) ▸ keyLE_refl p.1
  have hsub := (sublist_insertionSort hsorted filter_sublist).filter fun p => p.1 = key
  rw [filter_filter] at hsub
  simp only [Bool.and_self] at hsub
  have hlength : (v.filter fun p => p.1 = key).length =
      (v.sorted.filter fun p => p.1 = key).length :=
    ((perm_insertionSort _ v).filter _).length_eq.symm
  rw [Values.get, Values.get, ← head?_filter, ← head?_filter,
    hsub.eq_of_length hlength]
  rfl

/-- **Each key of a query has its value again.** -/
theorem get_parseQuery_encode (h : v.Bytes) (hne : v ≠ []) (key : List Char) :
    (parseQuery v.encode).get key = v.get key := by
  rw [parseQuery_encode h hne, Values.get_sorted]

end NatProxy.Lib.GoURL
