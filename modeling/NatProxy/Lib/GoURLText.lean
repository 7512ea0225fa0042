import NatProxy.Lib.GoQuery
import NatProxy.Lib.TextParts

/-!
# How a URL with a host is written and read back

`Reads` is the graph of `unescape`. A URL with a scheme and a host that was read from a text
(`Hosted`) is written as its scheme, its user, its host and its path, and
`Hosted.parse_append` says what that is read as, with more of a path and a query behind it. All of
it is read back but a host in brackets, which is left to the parameter of `parse`.
-/

namespace NatProxy.Lib.GoURL

open Text List

/-! ## Texts whose escapes are read -/

/-- The first text is read as the second, in a part other than the query. -/
inductive Reads (mode : Encoding) : List Char → List Char → Prop
  | nil : Reads mode [] []
  | escape {a b c : Char} {cs x : List Char} :
    unescapeByte mode a b = .ok c → Reads mode cs x → Reads mode ('%' :: a :: b :: cs) (c :: x)
  | byte {c : Char} {cs x : List Char} : c ≠ '%' →
    ¬ ((mode = .host ∨ mode = .zone) ∧ c.toNat < 0x80 ∧ shouldEscape c mode = true) →
    Reads mode cs x → Reads mode (c :: cs) (c :: x)

variable {mode : Encoding}

variable {c : Char} {x : List Char}

theorem exists_of_consByte {r : Except Error (List Char)} (h : consByte c r = .ok x) :
    ∃ y, r = .ok y ∧ x = c :: y := by
  cases r with
  | ok y =>
    cases h
    exact ⟨y, rfl, rfl⟩
  | error err => cases h

theorem unescape_eq_ok_iff (hmode : mode ≠ .queryComponent) {cs : List Char} :
    unescape mode cs = .ok x ↔ Reads mode cs x := by
  constructor
  · intro h
    fun_induction unescape mode cs generalizing x with
    | case1 =>
      cases h
      exact .nil
    | case2 a b rest c hbyte ih =>
      obtain ⟨y, hy, rfl⟩ := exists_of_consByte h
      exact .escape hbyte (ih hy)
    | case3 | case4 | case5 => cases h
    | case6 c cs hpercent hhost hplus => exact absurd hplus.2 hmode
    | case7 c cs hpercent hhost hplus ih =>
      obtain ⟨y, hy, rfl⟩ := exists_of_consByte h
      exact .byte hpercent hhost (ih hy)
  · intro h
    induction h with
    | nil => rfl
    | escape hbyte _ ih =>
      rw [unescape.eq_def]
      simp only [if_true, hbyte, ih, consByte]
    | byte hpercent hhost _ ih =>
      rw [unescape.eq_def]
      simp only [if_neg hpercent, if_neg hhost, hmode, and_false, if_false, ih, consByte]

theorem Reads.append {a b y : List Char} (ha : Reads mode a x) (hb : Reads mode b y) :
    Reads mode (a ++ b) (x ++ y) := by
  induction ha with
  | nil => exact hb
  | escape hbyte _ ih => exact .escape hbyte ih
  | byte hpercent hhost _ ih => exact .byte hpercent hhost ih

theorem hexValue_of_unescapeByte {a b : Char} (h : unescapeByte mode a b = .ok c) :
    ∃ x y, hexValue a = some x ∧ hexValue b = some y ∧ c = Char.ofNat (x * 16 + y) ∧
      ¬ (mode = .host ∧ x < 8 ∧ ¬(a = '2' ∧ b = '5')) := by
  rw [unescapeByte] at h
  split at h
  · rename_i x y hx hy
    dsimp only at h
    split_ifs at h with hhost hzone
    exact ⟨x, y, hx, hy, (Except.ok.inj h).symm, hhost⟩
  · cases h

/-- A character that is in no escape begins a text of its own. -/
theorem Reads.split {a b : List Char} (h : Reads mode (a ++ c :: b) x)
    (hhex : hexValue c = none) : ∃ y z, Reads mode a y ∧ Reads mode (c :: b) z ∧ x = y ++ z := by
  generalize htext : a ++ c :: b = text at h
  induction h generalizing a with
  | nil => simp at htext
  | @escape d e f cs x hbyte hcs ih =>
    obtain ⟨v, w, hv, hw, -, -⟩ := hexValue_of_unescapeByte hbyte
    match a with
    | [] =>
      rw [nil_append] at htext
      exact ⟨[], f :: x, .nil, htext ▸ .escape hbyte hcs, rfl⟩
    | [_] => simp_all
    | [_, _] => simp_all
    | p :: q :: r :: a =>
      simp only [cons_append, cons.injEq] at htext
      obtain ⟨rfl, rfl, rfl, hcs⟩ := htext
      obtain ⟨y, z, hy, hz, rfl⟩ := ih hcs
      exact ⟨f :: y, z, .escape hbyte hy, hz, rfl⟩
  | @byte d cs x hpercent hhost hcs ih =>
    match a with
    | [] =>
      rw [nil_append] at htext
      exact ⟨[], d :: x, .nil, htext ▸ .byte hpercent hhost hcs, rfl⟩
    | e :: a =>
      simp only [cons_append, cons.injEq] at htext
      obtain ⟨rfl, hcs⟩ := htext
      obtain ⟨y, z, hy, hz, rfl⟩ := ih hcs
      exact ⟨_ :: y, z, .byte hpercent hhost hy, hz, rfl⟩

/-- What is read of bytes are bytes; in a host they can be read again once they are escaped. -/
theorem Reads.spec {cs : List Char} (h : Reads mode cs x) (hbytes : ∀ c ∈ cs, c.toNat < 256) :
    ∀ c ∈ x, c.toNat < 256 ∧
      (mode = .host → shouldEscape c .host = true → c = '%' ∨ 128 ≤ c.toNat) := by
  induction h with
  | nil => nofun
  | @escape a b c cs x hbyte _ ih =>
    obtain ⟨v, w, hv, hw, rfl, hhost⟩ := hexValue_of_unescapeByte hbyte
    have hv' := hexValue_lt hv
    have hw' := hexValue_lt hw
    have hnat : (Char.ofNat (v * 16 + w)).toNat = v * 16 + w := toNat_ofNat (by omega)
    intro c hc
    rcases mem_cons.mp hc with rfl | hc
    · refine ⟨by omega, fun hmode _ => ?_⟩
      by_cases hsmall : v < 8
      · left
        have hpercent : a = '2' ∧ b = '5' := by
          by_contra hne
          exact hhost ⟨hmode, hsmall, hne⟩
        obtain ⟨rfl, rfl⟩ := hpercent
        cases hv
        cases hw
        rfl
      · right
        omega
    · exact ih (fun d hd => hbytes d (by simp [hd])) c hc
  | @byte d cs x _ hhost _ ih =>
    intro c hc
    rcases mem_cons.mp hc with rfl | hc
    · refine ⟨hbytes c mem_cons_self, fun hmode hescape => .inr ?_⟩
      by_contra hsmall
      subst hmode
      exact hhost ⟨.inl rfl, by omega, hescape⟩
    · exact ih (fun e he => hbytes e (mem_cons_of_mem d he)) c hc

/-! ## Hosts -/

section Host

variable {ipLiteral : List Char → Except Error (List Char)}

theorem plain_port {digits : List Char} (h : digits.all Char.isDigit = true) :
    Plain .host (':' :: digits) := by
  intro c hc
  rcases mem_cons.mp hc with rfl | hc
  · decide
  · rw [shouldEscape, if_pos]
    simp [Char.isAlphanum, all_eq_true.mp h c hc]

/-- A host and a port are read back, if the escapes of the host can be. -/
theorem parseHost_port {host digits : List Char} (hbytes : ∀ c ∈ host, c.toNat < 256)
    (hreadable : ∀ c ∈ host, Readable .host c) (hbracket : '[' ∉ host)
    (hdigits : digits.all Char.isDigit = true) :
    parseHost ipLiteral (escape .host (host ++ ':' :: digits)) = .ok (host ++ ':' :: digits) := by
  have hplain := plain_port hdigits
  have hdigit : ∀ c ∈ digits, c.isDigit = true := all_eq_true.mp hdigits
  have hread : unescape .host (escape .host (host ++ ':' :: digits)) =
      .ok (host ++ ':' :: digits) := by
    apply unescape_escape
    · intro c hc
      rcases mem_append.mp hc with hc | hc
      · exact hbytes c hc
      · exact Nat.lt_trans (toNat_lt_plain (hplain c hc)) (by decide)
    · intro c hc
      rcases mem_append.mp hc with hc | hc
      · exact hreadable c hc
      · refine ⟨by decide, fun _ hescape => ?_⟩
        rw [hplain c hc] at hescape
        cases hescape
  -- the port has no escapes, so it is still behind the last colon
  have hescape : escape .host (host ++ ':' :: digits) = escape .host host ++ ':' :: digits := by
    rw [escape, flatMap_append]
    exact congrArg _ (escape_plain hplain)
  have hnone : '[' ∉ escape .host host ++ ':' :: digits := by
    simp only [mem_append, mem_cons, not_or]
    exact ⟨fun hmem => hbracket (mem_of_mem_escape hmem rfl), by decide,
      fun hmem => absurd (hdigit _ hmem) (by decide)⟩
  rw [hescape] at hread ⊢
  rw [parseHost, if_neg hnone, cutLast_append _ _ fun hmem => absurd (hdigit _ hmem) (by decide)]
  simp only [validOptionalPort, hdigits, decide_true, Bool.and_self, if_true]
  exact hread

end Host

/-! ## Paths -/

/-- A character that is no blank and no control character, and that no path ends at. -/
structure Inner (c : Char) : Prop where
  ascii : c.toNat < 128
  control : isControl c = false
  space : isDartSpace c = false
  question : c ≠ '?'
  hash : c ≠ '#'

/-- A character of an escaped path. -/
def isPathChar (c : Char) : Bool := c ∈ "!$&'()*+,;=:@[]%".toList || !shouldEscape c .path

theorem inner_of_ascii {p : Char → Bool} (hc : p c = true) (hsmall : c.toNat < 128)
    (hall : ∀ n < 128, p (Char.ofNat n) = true → isControl (Char.ofNat n) = false ∧
      isDartSpace (Char.ofNat n) = false ∧ Char.ofNat n ≠ '?' ∧ Char.ofNat n ≠ '#') : Inner c := by
  have hchar := hall c.toNat hsmall
  rw [Char.ofNat_toNat] at hchar
  obtain ⟨hcontrol, hspace, hquestion, hhash⟩ := hchar hc
  exact ⟨hsmall, hcontrol, hspace, hquestion, hhash⟩

theorem inner_of_isPathChar (h : isPathChar c = true) : Inner c := by
  apply inner_of_ascii h
  · rw [isPathChar, Bool.or_eq_true, decide_eq_true_eq, Bool.not_eq_true'] at h
    rcases h with h | h
    · have hlist : ∀ d ∈ "!$&'()*+,;=:@[]%".toList, d.toNat < 128 := by simp
      exact hlist c h
    · exact toNat_lt_plain h
  · decide +kernel

theorem inner_of_isSchemeChar (h : isSchemeChar c = true) : Inner c := by
  apply inner_of_ascii h
  · simp only [isSchemeChar, Bool.or_eq_true, decide_eq_true_eq] at h
    rcases h with ((h | rfl) | rfl) | rfl
    · exact toNat_lt_of_isAlphanum h
    all_goals decide
  · decide +kernel

theorem inner_of_mem_escape {s : List Char} (hquestion : onlyEscaped mode '?' = true)
    (hhash : onlyEscaped mode '#' = true) (h : c ∈ escape mode s) : Inner c where
  ascii := by
    rcases mem_escape h with hplain | rfl | ⟨rfl, -⟩
    · exact toNat_lt_plain hplain
    · decide
    · decide
  control := isControl_of_mem_escape h
  space := by
    rcases mem_escape h with hplain | rfl | ⟨rfl, -⟩
    · exact isDartSpace_plain hplain
    · decide
    · decide
  question := by
    rintro rfl
    exact notMem_escape hquestion s h
  hash := by
    rintro rfl
    exact notMem_escape hhash s h

/-- A path that is empty or begins with a slash, of a URL that was read. -/
structure Rooted (u : URL) : Prop where
  path : u.path = [] ∨ u.path.head? = some '/'
  bytes : ∀ c ∈ u.path, c.toNat < 256
  raw : u.rawPath = [] ∨ u.rawPath.head? = some '/'

namespace Rooted

variable {u : URL}

theorem path_ne_star (h : Rooted u) : u.path ≠ ['*'] := by
  intro hstar
  rcases h.path with hpath | hpath <;> rw [hstar] at hpath <;> exact absurd hpath (by decide)

theorem escapedPath_cases (h : Rooted u) :
    u.escapedPath = escape .path u.path ∨
      u.escapedPath = u.rawPath ∧ validEncoded u.rawPath .path = true ∧
        Reads .path u.rawPath u.path := by
  rw [URL.escapedPath, rawOr, if_neg h.path_ne_star]
  split_ifs with hraw
  · exact .inr ⟨rfl, hraw.2.1, (unescape_eq_ok_iff (by decide)).mp hraw.2.2⟩
  · exact .inl rfl

theorem reads (h : Rooted u) : Reads .path u.escapedPath u.path := by
  rcases h.escapedPath_cases with heq | ⟨heq, -, hreads⟩
  · rw [heq, ← unescape_eq_ok_iff (by decide)]
    exact unescape_escape h.bytes fun c _ => readable_of_ne (by decide) (by decide) c
  · rwa [heq]

theorem inner (h : Rooted u) : ∀ c ∈ u.escapedPath, Inner c := by
  intro c hc
  rcases h.escapedPath_cases with heq | ⟨heq, hvalid, -⟩
  · rw [heq] at hc
    exact inner_of_mem_escape rfl rfl hc
  · rw [heq] at hc
    exact inner_of_isPathChar (all_eq_true.mp hvalid c hc)

theorem root (h : Rooted u) : u.escapedPath = [] ∨ u.escapedPath.head? = some '/' := by
  rcases h.escapedPath_cases with heq | ⟨heq, -, -⟩
  · rw [heq]
    rcases h.path with hpath | hpath
    · exact .inl (by rw [hpath]; rfl)
    · obtain ⟨rest, hrest⟩ := head?_eq_some_iff.mp hpath
      exact .inr (by rw [hrest]; rfl)
  · rw [heq]
    exact h.raw

theorem last (h : Rooted u) (hlast : u.path.getLast? ≠ some '/') :
    u.escapedPath.getLast? ≠ some '/' := by
  intro hslash
  obtain ⟨front, hfront⟩ := getLast?_eq_some_iff.mp hslash
  have hreads := h.reads
  rw [hfront] at hreads
  obtain ⟨y, z, -, hz, hpath⟩ := hreads.split (by decide)
  -- what is read of the slash alone is a slash
  have hone : z = ['/'] := by
    cases hz with
    | byte _ _ hnil => cases hnil; rfl
  rw [hpath, hone] at hlast
  simp at hlast

end Rooted

/-! ## URLs with a host -/

/-- A URL with a host, as it is read from a text. -/
structure Hosted (u : URL) : Prop extends Rooted u where
  scheme : PlainScheme u.scheme
  noOpaque : u.opaqueText = []
  host : u.host ≠ []
  user : ByteUser u.user

theorem authority_of_host {u : URL} (h : u.host ≠ []) :
    u.authority = '/' :: '/' :: (userText u.user ++ escape .host u.host) := by
  rw [URL.authority, if_neg (fun hnone => h hnone.2.1), if_neg (fun hnone => h hnone.2.1),
    if_pos (.inl h)]
  cases hu : u.user <;> rfl

namespace Hosted

variable {u : URL}

/-- What is written up to the query. -/
theorem base (h : Hosted u) : u.base = u.scheme ++ ':' :: '/' :: '/' ::
    (userText u.user ++ escape .host u.host ++ u.escapedPath) := by
  have hroot : ¬ (u.escapedPath ≠ [] ∧ u.escapedPath.head? ≠ some '/' ∧ u.host ≠ []) := by
    rintro ⟨hne, hhead, -⟩
    exact h.root.elim hne hhead
  simp [URL.base, h.scheme.ne, h.noOpaque, hroot, authority_of_host h.host]

theorem prefix_string (h : Hosted u) : u.scheme ++ [':', '/', '/'] <+: u.string := by
  have hbase : u.scheme ++ [':', '/', '/'] <+: u.base := by
    rw [h.base]
    exact ⟨_, append_assoc ..⟩
  exact hbase.trans ((prefix_append _ _).trans (prefix_append _ _))

theorem inner_base (h : Hosted u) : ∀ c ∈ u.base, Inner c := by
  intro c hc
  simp only [h.base, mem_append, mem_cons] at hc
  rcases hc with hc | rfl | rfl | rfl | (hc | hc) | hc
  · exact inner_of_isSchemeChar (h.scheme.chars c hc)
  · constructor <;> decide
  · constructor <;> decide
  · constructor <;> decide
  · rcases mem_userText hc with rfl | rfl | ⟨text, hc⟩
    · constructor <;> decide
    · constructor <;> decide
    · exact inner_of_mem_escape rfl rfl hc
  · exact inner_of_mem_escape rfl rfl hc
  · exact h.inner c hc

theorem last_base (h : Hosted u) (hlast : u.path.getLast? ≠ some '/') :
    u.base.getLast? ≠ some '/' := by
  have hpath := h.last hlast
  have hassoc : u.base = (u.scheme ++ ':' :: '/' :: '/' :: userText u.user) ++
      escape .host u.host ++ u.escapedPath := by
    simp [h.base]
  rw [hassoc, getLast?_append, getLast?_append]
  cases hcase : u.escapedPath.getLast? with
  | some c =>
    rw [hcase] at hpath
    exact hpath
  | none =>
    -- without a path the last character is one of the host
    have hne : escape .host u.host ≠ [] := mt escape_eq_nil_iff.mp h.host
    rw [getLast?_eq_some_getLast hne, Option.none_or, Option.some_or]
    intro heq
    have hmem := getLast_mem hne
    rw [Option.some.inj heq] at hmem
    exact notMem_escape rfl u.host hmem

end Hosted

section Parse

variable {ipLiteral : List Char → Except Error (List Char)}

theorem byteUser_of_parseUserinfo {userinfo : List Char} {ui : Userinfo}
    (h : parseUserinfo userinfo = .ok ui) (hbytes : ∀ c ∈ userinfo, c.toNat < 256) :
    ByteUser (some ui) := by
  have hread : ∀ {text out : List Char}, unescape .userPassword text = .ok out →
      (∀ c ∈ text, c ∈ userinfo) → ∀ c ∈ out, c.toNat < 256 := fun htext hsub c hc =>
    (((unescape_eq_ok_iff (by decide)).mp htext).spec (fun d hd => hbytes d (hsub d hd)) c hc).1
  obtain ⟨hsplit, -⟩ := cut_split ':' userinfo
  rw [parseUserinfo] at h
  split_ifs at h
  split at h
  · next username hcut =>
      rw [hcut] at hsplit
      split at h
      · next name hname =>
          cases h
          refine ⟨?_, ?_⟩
          · rintro _ ⟨⟩
            exact hread hname fun c hc => hsplit ▸ mem_append_left _ hc
          · rintro _ ⟨⟩ password ⟨⟩
      · cases h
  · next username password hcut =>
      rw [hcut] at hsplit
      split at h
      · next name pass hname hpass =>
          cases h
          refine ⟨?_, ?_⟩
          · rintro _ ⟨⟩
            exact hread hname fun c hc => hsplit ▸ mem_append_left _ hc
          · rintro _ ⟨⟩ _ ⟨⟩
            exact hread hpass fun c hc => hsplit ▸ mem_append_right _ (mem_cons_of_mem _ hc)
      · cases h
      · cases h

theorem byteUser_of_parseAuthority {authority : List Char} {user : Option Userinfo}
    {host : List Char} (h : parseAuthority ipLiteral authority = .ok (user, host))
    (hbytes : ∀ c ∈ authority, c.toNat < 256) : ByteUser user := by
  rw [parseAuthority] at h
  split at h
  · split at h
    · cases h
      constructor <;> rintro _ ⟨⟩
    · cases h
  · next userinfo rawHost hcut =>
      split at h
      · next hostname ui hhost hui =>
          cases h
          rw [TextParts.eq_of_cutLast hcut] at hbytes
          exact byteUser_of_parseUserinfo hui fun c hc => hbytes c (mem_append_left _ hc)
      · cases h
      · cases h

theorem rooted_of_reads {u : URL} {path : List Char} (h : unescape .path path = .ok u.path)
    (hbytes : ∀ c ∈ path, c.toNat < 256) (hroot : path = [] ∨ path.head? = some '/')
    (hraw : u.rawPath = [] ∨ u.rawPath = path) : Rooted u := by
  have hreads := (unescape_eq_ok_iff (by decide)).mp h
  refine ⟨?_, fun c hc => (hreads.spec hbytes c hc).1, ?_⟩
  · generalize u.path = out at hreads
    rcases hroot with rfl | hroot
    · cases hreads
      exact .inl rfl
    · obtain ⟨rest, rfl⟩ := head?_eq_some_iff.mp hroot
      cases hreads with
      | byte _ _ _ => exact .inr rfl
  · rcases hraw with hraw | hraw
    · exact .inl hraw
    · rw [hraw]
      exact hroot

theorem hosted_of_parse {text : List Char} {u : URL} (h : parse ipLiteral text = .ok u)
    (hbytes : ∀ c ∈ text, c.toNat < 256) (hscheme : PlainScheme u.scheme) (hhost : u.host ≠ []) :
    Hosted u := by
  obtain ⟨p, rfl, hread⟩ := exists_parts h hscheme.ne hhost
  obtain ⟨-, hopaque, -, hauthority, hpath, hraw⟩ := Parts.read_spec hread
  have hfront : ∀ c ∈ p.authority ++ p.path, c.toNat < 256 := fun c hc => by
    apply hbytes
    have hmem := mem_append.mp hc
    simp only [Parts.text, Parts.front, mem_append, mem_cons, hmem, or_true, true_or]
  have hrooted : Rooted u := by
    apply rooted_of_reads hpath (fun c hc => hfront c (mem_append_right _ hc)) p.root
    rw [hraw]
    split_ifs
    · exact .inl rfl
    · exact .inr rfl
  exact { hrooted with
    scheme := hscheme
    noOpaque := hopaque
    host := hhost
    user := byteUser_of_parseAuthority hauthority fun c hc => hfront c (mem_append_left _ hc) }

namespace Hosted

variable {u : URL} (h : Hosted u)

/-- The parts of what is written, with more of a path and a query behind it. -/
def parts {extra : List Char} (hextra : ∀ c ∈ extra, Inner c)
    (hroot : extra = [] ∨ extra.head? = some '/') {query : Option (List Char)}
    (hquery : '#' ∉ delimited '?' query) : Parts where
  scheme := u.scheme
  authority := userText u.user ++ escape .host u.host
  path := u.escapedPath ++ extra
  query := query
  fragment := none
  isScheme := h.scheme.toSchemeText
  authorityEnd := by
    intro c hc
    simp only [mem_cons, not_mem_nil, or_false] at hc
    rcases hc with rfl | rfl | rfl <;> exact notMem_userHost rfl rfl (by decide) (by decide)
  root := by
    rcases h.root with hnil | hhead
    · rwa [hnil]
    · exact .inr (by rw [head?_append, hhead]; rfl)
  pathEnd := by
    intro c hc hmem
    have hinner : Inner c := (mem_append.mp hmem).elim (h.inner c) (hextra c)
    simp only [mem_cons, not_mem_nil, or_false] at hc
    exact hc.elim hinner.question hinner.hash
  queryEnd := hquery

variable (ipLiteral)

include h

/-- **What is written is read back**, if its host is; what is put behind it becomes more path. -/
theorem parse_append {extra : List Char} (hextra : Plain .path extra)
    (hroot : extra = [] ∨ extra.head? = some '/') {query : Option (List Char)}
    (hquery : ∀ c ∈ delimited '?' query, isControl c = false ∧ c ≠ '#') :
    parse ipLiteral (u.base ++ extra ++ delimited '?' query) =
      (parseHost ipLiteral (escape .host u.host)).map fun host =>
        { scheme := u.scheme, user := u.user, host := host, path := u.path ++ extra
          rawPath := if escape .path (u.path ++ extra) = u.escapedPath ++ extra then []
            else u.escapedPath ++ extra
          forceQuery := decide (query = some []), rawQuery := query.getD [] } := by
  have hinner : ∀ c ∈ extra, Inner c := fun c hc =>
    inner_of_isPathChar (by simp [isPathChar, hextra c hc])
  let p : Parts := h.parts hinner hroot fun hmem => (hquery _ hmem).2 rfl
  have hfront : p.front = u.base ++ extra := by simp [h.base, p, parts, Parts.front]
  have hnone : (p.front ++ delimited '?' p.query).any isControl = false := by
    rw [hfront, any_eq_false]
    intro c hc
    rw [Bool.not_eq_true]
    rcases mem_append.mp hc with hc | hc
    · exact ((mem_append.mp hc).elim (h.inner_base c) (hinner c)).control
    · exact (hquery c hc).1
  have hauthority : parseAuthority ipLiteral p.authority =
      (parseHost ipLiteral (escape .host u.host)).map fun host => (u.user, host) :=
    parseAuthority_userText h.user
  have hpath : unescape .path p.path = .ok (u.path ++ extra) := by
    rw [unescape_eq_ok_iff (by decide)]
    exact h.reads.append ((unescape_eq_ok_iff (by decide)).mp (unescape_plain (by decide) hextra))
  have htext : u.base ++ extra ++ delimited '?' query = p.text := by
    rw [Parts.text, hfront]
    exact (append_nil _).symm
  rw [htext, p.parse_text, hnone, if_neg Bool.false_ne_true, Parts.read, hauthority]
  cases parseHost ipLiteral (escape .host u.host) with
  | error err => rfl
  | ok host =>
    simp only [Except.map, URL.setPath, hpath]
    simp [p, parts, h.scheme.lower]

/-- **A URL with a query is read back**, if its host is. -/
theorem parse_string (hraw : u.rawPath = []) (hflags : u.omitHost = false ∧ u.forceQuery = false)
    (hne : u.rawQuery ≠ []) (hquery : ∀ c ∈ u.rawQuery, isControl c = false ∧ c ≠ '#')
    (hfragment : u.rawFragment = [] ∧ ∀ c ∈ u.fragment, c.toNat < 256) :
    parse ipLiteral u.string =
      (parseHost ipLiteral (escape .host u.host)).map fun host => { u with host := host } := by
  have hdelimited : ∀ c ∈ delimited '?' (some u.rawQuery), isControl c = false ∧ c ≠ '#' := by
    intro c hc
    rcases mem_cons.mp hc with rfl | hc
    · decide
    · exact hquery c hc
  have hpath : u.escapedPath = escape .path u.path := by
    rw [URL.escapedPath, rawOr, if_neg (fun h => h.1 hraw), if_neg h.path_ne_star]
  have hparse : parse ipLiteral (u.base ++ delimited '?' (some u.rawQuery)) =
      (parseHost ipLiteral (escape .host u.host)).map fun host =>
        { u with host := host, fragment := [] } := by
    have happend := h.parse_append ipLiteral (show Plain .path [] from nofun) (.inl rfl) hdelimited
    have hopaque := h.noOpaque
    obtain ⟨homit, hforce⟩ := hflags
    cases u
    simp_all
  have hescaped : u.escapedFragment = escape .fragment u.fragment := by
    rw [URL.escapedFragment, rawOr, if_neg (fun h => h.1 hfragment.1)]
  rw [URL.string, hescaped, if_pos (.inr hne)]
  by_cases hempty : u.fragment = []
  · rw [if_neg (not_not.mpr hempty), append_nil, show '?' :: u.rawQuery = _ from rfl]
    refine hparse.trans (congrArg (Except.map · _) (funext fun _ => ?_))
    rw [hempty]
  · have hhash : '#' ∉ u.base ++ delimited '?' (some u.rawQuery) :=
      not_mem_append (fun hmem => (h.inner_base _ hmem).hash rfl)
        fun hmem => (hdelimited _ hmem).2 rfl
    rw [if_pos hempty]
    refine (parse_fragment hhash (mt escape_eq_nil_iff.mp hempty)).trans ?_
    rw [hparse]
    cases parseHost ipLiteral (escape .host u.host) with
    | error err => rfl
    | ok host =>
      have hset := setFragment_escape { u with host := host, fragment := [] } hfragment.2
      refine hset.trans ?_
      rw [← hfragment.1]
      rfl

end Hosted

end Parse

end NatProxy.Lib.GoURL
