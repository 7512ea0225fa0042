import NatProxy.Lib.Text

/-!
# URLs as `net/url` reads and writes them

A Go string is the list of its bytes, each as the character with its number. `parse` is
`url.Parse` and `URL.string` is `URL.String`, with the escapes of each part, the raw forms that are
kept when the default escape would be another text, and the flag for an empty query. What becomes of
a host in brackets is a parameter.

`Parts` are the parts of a URL with an authority: every URL with a scheme and a host has them
(`exists_parts`), and `Parts.parse_text` says what they are read as.
-/

namespace NatProxy.Lib.GoURL

open Text List

/-! ## Escapes -/

/-- The parts of a URL with escapes of their own. -/
inductive Encoding where
  | path
  | pathSegment
  | host
  | zone
  | userPassword
  | queryComponent
  | fragment
deriving DecidableEq, Repr

inductive Error where
  | escape (text : List Char)
  | invalidHost (c : Char)
  | invalidPort (text : List Char)
  | invalidUserinfo
  | ipLiteral
  | controlCharacter
  | missingScheme
  | colonInFirstSegment
deriving DecidableEq, Repr

def shouldEscape (c : Char) (mode : Encoding) : Bool :=
  if c.isAlphanum then false
  else if (mode = .host ∨ mode = .zone) ∧ c ∈ "!$&'()*+,;=:[]<>\"".toList then false
  else if c ∈ "-_.~".toList then false
  else if c ∈ "$&+,/:;=?@".toList then
    match mode with
    | .path => c = '?'
    | .pathSegment => c = '/' || c = ';' || c = ',' || c = '?'
    | .userPassword => c = '@' || c = '/' || c = '?' || c = ':'
    | .queryComponent => true
    | .fragment => false
    | .host => true
    | .zone => true
  else if mode = .fragment ∧ c ∈ "!()*".toList then false
  else true

def escapeByte (mode : Encoding) (c : Char) : List Char :=
  if shouldEscape c mode then
    if c = ' ' ∧ mode = .queryComponent then ['+']
    else ['%', upperHex (c.toNat / 16), upperHex (c.toNat % 16)]
  else [c]

def escape (mode : Encoding) (s : List Char) : List Char := s.flatMap (escapeByte mode)

/-- The byte of an escape. In a host only `%25` and what is no ASCII may be escaped, in a zone also
blanks and what needs no escape in a host. -/
def unescapeByte (mode : Encoding) (a b : Char) : Except Error Char :=
  match hexValue a, hexValue b with
  | some x, some y =>
    let c := Char.ofNat (x * 16 + y)
    if mode = .host ∧ x < 8 ∧ ¬(a = '2' ∧ b = '5') then .error (.escape ['%', a, b])
    else if mode = .zone ∧ ¬(a = '2' ∧ b = '5') ∧ c ≠ ' ' ∧ shouldEscape c .host then
      .error (.escape ['%', a, b])
    else .ok c
  | _, _ => .error (.escape ['%', a, b])

def consByte (c : Char) : Except Error (List Char) → Except Error (List Char)
  | .ok cs => .ok (c :: cs)
  | .error err => .error err

def unescape (mode : Encoding) : List Char → Except Error (List Char)
  | [] => .ok []
  | c :: cs =>
    if c = '%' then
      match cs with
      | a :: b :: rest =>
        match unescapeByte mode a b with
        | .ok c => consByte c (unescape mode rest)
        | .error err => .error err
      | _ => .error (.escape ('%' :: cs))
    else if (mode = .host ∨ mode = .zone) ∧ c.toNat < 0x80 ∧ shouldEscape c mode then
      .error (.invalidHost c)
    else if c = '+' ∧ mode = .queryComponent then consByte ' ' (unescape mode cs)
    else consByte c (unescape mode cs)

def isControl (c : Char) : Bool := c.toNat < 0x20 || c.toNat = 0x7f

def Plain (mode : Encoding) (s : List Char) : Prop := ∀ c ∈ s, shouldEscape c mode = false

variable {mode : Encoding}

theorem escape_plain {s : List Char} (h : Plain mode s) : escape mode s = s := by
  induction s with
  | nil => rfl
  | cons c s ih =>
    have hc : escapeByte mode c = [c] := by
      rw [escapeByte, h c mem_cons_self]
      rfl
    have hs := ih fun d hd => h d (mem_cons_of_mem c hd)
    rw [escape] at hs ⊢
    rw [flatMap_cons, hc, hs]
    rfl

theorem shouldEscape_percent (mode : Encoding) : shouldEscape '%' mode = true := by
  cases mode <;> decide

variable {c : Char}

theorem isControl_plain (h : shouldEscape c mode = false) : isControl c = false := by
  have hall : ∀ n < 128, isControl (Char.ofNat n) = true →
      shouldEscape (Char.ofNat n) mode = true := by
    cases mode <;> decide +kernel
  rw [← Bool.not_eq_true]
  intro hcontrol
  have hsmall : c.toNat < 128 := by
    simp only [isControl, Bool.or_eq_true, decide_eq_true_eq] at hcontrol
    omega
  have hescape := hall c.toNat hsmall
  rw [Char.ofNat_toNat, h] at hescape
  exact absurd (hescape hcontrol) Bool.false_ne_true

theorem toNat_lt_plain (h : shouldEscape c mode = false) : c.toNat < 128 := by
  have hlists : ∀ text ∈ ["!$&'()*+,;=:[]<>\"", "-_.~", "$&+,/:;=?@", "!()*"],
      ∀ d ∈ text.toList, d.toNat < 128 := by simp
  rw [shouldEscape.eq_def] at h
  split_ifs at h with halnum hhost hmark hreserved hfragment
  · exact toNat_lt_of_isAlphanum halnum
  · exact hlists _ (by decide) c hhost.2
  · exact hlists _ (by decide) c hmark
  · exact hlists _ (by decide) c hreserved
  · exact hlists _ (by decide) c hfragment.2

theorem isDartSpace_plain (h : shouldEscape c mode = false) : isDartSpace c = false := by
  have hall : ∀ n < 128, isDartSpace (Char.ofNat n) = true →
      shouldEscape (Char.ofNat n) mode = true := by
    cases mode <;> decide +kernel
  have hescape := hall c.toNat (toNat_lt_plain h)
  rw [Char.ofNat_toNat, h] at hescape
  exact Bool.eq_false_iff.mpr fun hspace => Bool.false_ne_true (hescape hspace)

theorem unescape_plain (hmode : mode ≠ .queryComponent) {s : List Char}
    (h : Plain mode s) : unescape mode s = .ok s := by
  induction s with
  | nil => rfl
  | cons c s ih =>
    have hc := h c mem_cons_self
    have hs := ih fun d hd => h d (mem_cons_of_mem c hd)
    have hpercent : c ≠ '%' := by
      rintro rfl
      rw [shouldEscape_percent] at hc
      cases hc
    rw [unescape.eq_def]
    simp only [hpercent, if_false, hc, Bool.false_eq_true, and_false, hmode, hs]
    rfl

/-! ## URLs -/

structure Userinfo where
  username : List Char
  password : Option (List Char)
deriving DecidableEq, Repr

/-- A `url.URL`; `opaqueText` is its field `Opaque`. -/
structure URL where
  scheme : List Char := []
  opaqueText : List Char := []
  user : Option Userinfo := none
  host : List Char := []
  path : List Char := []
  rawPath : List Char := []
  omitHost : Bool := false
  forceQuery : Bool := false
  rawQuery : List Char := []
  fragment : List Char := []
  rawFragment : List Char := []
deriving DecidableEq, Repr

def isSchemeChar (c : Char) : Bool := c.isAlphanum || c = '+' || c = '-' || c = '.'

def getScheme (rawURL : List Char) : Except Error (List Char × List Char) :=
  match rawURL with
  | [] => .ok ([], rawURL)
  | c :: _ =>
    if c.isAlpha then
      match rawURL.dropWhile isSchemeChar with
      | ':' :: rest => .ok (rawURL.takeWhile isSchemeChar, rest)
      | _ => .ok ([], rawURL)
    else if c = ':' then .error .missingScheme
    else .ok ([], rawURL)

def validUserinfo (s : List Char) : Bool :=
  s.all fun c => c.isAlphanum || c ∈ "-._:~!$&'()*+,;=%@".toList

def validOptionalPort : List Char → Bool
  | [] => true
  | c :: digits => c = ':' && digits.all Char.isDigit

section Parse

variable (ipLiteral : List Char → Except Error (List Char))

def parseHost (host : List Char) : Except Error (List Char) :=
  if '[' ∈ host then ipLiteral host
  else
    match cutLast ':' host with
    | some (_, digits) =>
      if validOptionalPort (':' :: digits) then unescape .host host
      else .error (.invalidPort (':' :: digits))
    | none => unescape .host host

def parseUserinfo (userinfo : List Char) : Except Error Userinfo :=
  if ¬validUserinfo userinfo then .error .invalidUserinfo
  else
    match cut ':' userinfo with
    | (username, none) =>
      match unescape .userPassword username with
      | .ok username => .ok ⟨username, none⟩
      | .error err => .error err
    | (username, some password) =>
      match unescape .userPassword username, unescape .userPassword password with
      | .ok username, .ok password => .ok ⟨username, some password⟩
      | .error err, _ => .error err
      | _, .error err => .error err

def parseAuthority (authority : List Char) : Except Error (Option Userinfo × List Char) :=
  match cutLast '@' authority with
  | none =>
    match parseHost ipLiteral authority with
    | .ok host => .ok (none, host)
    | .error err => .error err
  | some (userinfo, host) =>
    match parseHost ipLiteral host, parseUserinfo userinfo with
    | .ok host, .ok user => .ok (some user, host)
    | .error err, _ => .error err
    | _, .error err => .error err

def URL.setPath (u : URL) (p : List Char) : Except Error URL :=
  match unescape .path p with
  | .error err => .error err
  | .ok path =>
    .ok { u with path := path, rawPath := if escape .path path = p then [] else p }

def URL.setFragment (u : URL) (f : List Char) : Except Error URL :=
  match unescape .fragment f with
  | .error err => .error err
  | .ok frag =>
    .ok { u with fragment := frag, rawFragment := if escape .fragment frag = f then [] else f }

/-- The query is cut off, or only flagged if all of it is a question mark. -/
def cutQuery (u : URL) (rest : List Char) : URL × List Char :=
  if rest.getLast? = some '?' ∧ rest.count '?' = 1 then
    ({ u with forceQuery := true }, rest.dropLast)
  else ({ u with rawQuery := (cut '?' rest).2.getD [] }, (cut '?' rest).1)

def parseRest (u : URL) (rest : List Char) : Except Error URL :=
  -- after a scheme, a path without a slash is opaque; without a scheme it is relative
  if rest.head? ≠ some '/' ∧ u.scheme ≠ [] then .ok { u with opaqueText := rest }
  else if rest.head? ≠ some '/' ∧ ':' ∈ (cut '/' rest).1 then .error .colonInFirstSegment
  else if (u.scheme ≠ [] ∨ ¬"///".toList <+: rest) ∧ "//".toList <+: rest then
    let authority := (rest.drop 2).takeWhile (· != '/')
    match parseAuthority ipLiteral authority with
    | .error err => .error err
    | .ok (user, host) =>
      { u with user := user, host := host }.setPath ((rest.drop 2).dropWhile (· != '/'))
  else if u.scheme ≠ [] ∧ rest.head? = some '/' then { u with omitHost := true }.setPath rest
  else u.setPath rest

def parseNoFragment (rawURL : List Char) : Except Error URL :=
  if rawURL.any isControl then .error .controlCharacter
  else if rawURL = ['*'] then .ok { path := ['*'] }
  else
    match getScheme rawURL with
    | .error err => .error err
    | .ok (scheme, rest) =>
      let (u, rest) := cutQuery { scheme := scheme.map Char.toLower } rest
      parseRest ipLiteral u rest

def parse (rawURL : List Char) : Except Error URL :=
  match parseNoFragment ipLiteral (cut '#' rawURL).1 with
  | .error err => .error err
  | .ok u =>
    match (cut '#' rawURL).2.getD [] with
    | [] => .ok u
    | c :: f => u.setFragment (c :: f)

end Parse

/-! ## Writing -/

def validEncoded (s : List Char) (mode : Encoding) : Bool :=
  s.all fun c => c ∈ "!$&'()*+,;=:@[]%".toList || !shouldEscape c mode

/-- A raw form, if it is one of the text. -/
def rawOr (mode : Encoding) (raw text : List Char) (default : List Char) : List Char :=
  if raw ≠ [] ∧ validEncoded raw mode = true ∧ unescape mode raw = .ok text then raw else default

def URL.escapedPath (u : URL) : List Char :=
  rawOr .path u.rawPath u.path (if u.path = ['*'] then ['*'] else escape .path u.path)

def URL.escapedFragment (u : URL) : List Char :=
  rawOr .fragment u.rawFragment u.fragment (escape .fragment u.fragment)

def Userinfo.string (ui : Userinfo) : List Char :=
  match ui.password with
  | some password =>
    escape .userPassword ui.username ++ ':' :: escape .userPassword password
  | none => escape .userPassword ui.username

def URL.authority (u : URL) : List Char :=
  if u.scheme = [] ∧ u.host = [] ∧ u.user = none then []
  else if u.omitHost = true ∧ u.host = [] ∧ u.user = none then []
  else
    (if u.host ≠ [] ∨ u.path ≠ [] ∨ u.user ≠ none then ['/', '/'] else []) ++
      (match u.user with
        | some ui => ui.string ++ ['@']
        | none => []) ++
      escape .host u.host

def URL.base (u : URL) : List Char :=
  let scheme := if u.scheme ≠ [] then u.scheme ++ [':'] else []
  if u.opaqueText ≠ [] then scheme ++ u.opaqueText
  else
    let path := u.escapedPath
    let start := scheme ++ u.authority ++
      if path ≠ [] ∧ path.head? ≠ some '/' ∧ u.host ≠ [] then ['/'] else []
    let start := if start = [] ∧ ':' ∈ (cut '/' path).1 then ['.', '/'] else start
    start ++ path

def URL.string (u : URL) : List Char :=
  u.base ++ (if u.forceQuery = true ∨ u.rawQuery ≠ [] then '?' :: u.rawQuery else []) ++
    if u.fragment ≠ [] then '#' :: u.escapedFragment else []

/-! ## Queries -/

variable {rest : List Char}

theorem cutQuery_empty (u : URL) (h : '?' ∉ rest) :
    cutQuery u (rest ++ ['?']) = ({ u with forceQuery := true }, rest) := by
  have hcount : (rest ++ ['?']).count '?' = 1 := by
    rw [count_append, count_eq_zero_of_not_mem h]
    rfl
  rw [cutQuery, if_pos ⟨by simp, hcount⟩, dropLast_concat]

theorem cutQuery_none (u : URL) (h : '?' ∉ rest) :
    cutQuery u rest = ({ u with rawQuery := [] }, rest) := by
  have hlast : ¬ (rest.getLast? = some '?' ∧ rest.count '?' = 1) := by
    rintro ⟨-, hcount⟩
    rw [count_eq_zero_of_not_mem h] at hcount
    cases hcount
  rw [cutQuery, if_neg hlast, cut_of_notMem h]
  rfl

theorem cutQuery_some (u : URL) {query : List Char} (h : '?' ∉ rest) (hne : query ≠ []) :
    cutQuery u (rest ++ '?' :: query) = ({ u with rawQuery := query }, rest) := by
  have hlast : ¬ ((rest ++ '?' :: query).getLast? = some '?' ∧
      (rest ++ '?' :: query).count '?' = 1) := by
    rintro ⟨hlast, hcount⟩
    have hnone : '?' ∉ query := by
      rw [← count_eq_zero]
      simpa [count_append, count_eq_zero_of_not_mem h] using hcount
    obtain ⟨c, hc⟩ := Option.ne_none_iff_exists'.mp (mt getLast?_eq_none_iff.mp hne)
    have hmem := mem_of_getLast? hc
    simp [getLast?_append, getLast?_cons, hc] at hlast
    exact hnone (hlast ▸ hmem)
  rw [cutQuery, if_neg hlast, cut_append h]
  rfl

theorem cutQuery_delimited (scheme : List Char) (h : '?' ∉ rest) (query : Option (List Char)) :
    cutQuery { scheme := scheme } (rest ++ delimited '?' query) =
      ({ scheme := scheme, forceQuery := decide (query = some []), rawQuery := query.getD [] },
        rest) := by
  match query with
  | none => rw [delimited, append_nil, cutQuery_none _ h]; rfl
  | some [] => rw [delimited, cutQuery_empty _ h]; rfl
  | some (c :: q) => rw [delimited, cutQuery_some _ h (cons_ne_nil c q)]; rfl

theorem cutQuery_split (scheme rest : List Char) :
    ∃ query, rest = (cutQuery { scheme := scheme } rest).2 ++ delimited '?' query ∧
      '?' ∉ (cutQuery { scheme := scheme } rest).2 := by
  rw [cutQuery]
  split_ifs with hlast
  · obtain ⟨before, rfl⟩ := getLast?_eq_some_iff.mp hlast.1
    refine ⟨some [], by simp [delimited], ?_⟩
    have hcount := hlast.2
    rw [count_append, count_singleton_self, Nat.add_eq_right] at hcount
    simpa using count_eq_zero.mp hcount
  · exact ⟨_, cut_split '?' rest⟩

/-! ## Schemes -/

/-- A scheme that `getScheme` cuts off. -/
structure SchemeText (scheme : List Char) : Prop where
  alpha : ∃ c cs, scheme = c :: cs ∧ c.isAlpha = true
  chars : ∀ c ∈ scheme, isSchemeChar c = true

variable {scheme : List Char}

theorem SchemeText.getScheme (h : SchemeText scheme) (rest : List Char) :
    GoURL.getScheme (scheme ++ ':' :: rest) = .ok (scheme, rest) := by
  have hdrop : (scheme ++ ':' :: rest).dropWhile isSchemeChar = ':' :: rest := by
    rw [dropWhile_append_of_pos h.chars, dropWhile_cons_of_neg (by decide)]
  have htake : (scheme ++ ':' :: rest).takeWhile isSchemeChar = scheme := by
    rw [takeWhile_append_of_pos h.chars, takeWhile_cons_of_neg (by decide), append_nil]
  obtain ⟨c, cs, rfl, halpha⟩ := h.alpha
  simp only [GoURL.getScheme, cons_append, halpha, if_true] at hdrop htake ⊢
  rw [hdrop, htake]
  rfl

theorem SchemeText.ne (h : SchemeText scheme) : scheme ≠ [] := by
  obtain ⟨c, cs, rfl, -⟩ := h.alpha
  exact cons_ne_nil c cs

theorem schemeText_of_getScheme {rawURL : List Char} (h : getScheme rawURL = .ok (scheme, rest))
    (hne : scheme ≠ []) : SchemeText scheme ∧ rawURL = scheme ++ ':' :: rest := by
  rw [getScheme.eq_def] at h
  split at h
  · cases h
    exact absurd rfl hne
  · next c cs =>
      split_ifs at h with halpha hcolon
      · split at h
        · rename_i rest' hdrop
          cases h
          have hchar : isSchemeChar c = true := by
            rw [isSchemeChar, Char.isAlphanum, halpha]
            rfl
          refine ⟨⟨?_, ?_⟩, ?_⟩
          · rw [takeWhile_cons_of_pos hchar]
            exact ⟨c, _, rfl, halpha⟩
          · intro d hd
            exact mem_takeWhile_imp hd
          · rw [← hdrop, takeWhile_append_dropWhile]
        · cases h
          exact absurd rfl hne
      · cases h
        exact absurd rfl hne

/-- A scheme that is read as it is. -/
structure PlainScheme (scheme : List Char) : Prop extends SchemeText scheme where
  lower : scheme.map Char.toLower = scheme

/-! ## The parts of a URL with an authority -/

theorem span_host {host path : List Char} (hhost : '/' ∉ host)
    (hroot : path = [] ∨ path.head? = some '/') :
    (host ++ path).takeWhile (· != '/') = host ∧ (host ++ path).dropWhile (· != '/') = path := by
  have hne : ∀ c ∈ host, (c != '/') = true := by
    intro c hc
    rw [bne_iff_ne]
    rintro rfl
    exact hhost hc
  have hpath : path.takeWhile (· != '/') = [] ∧ path.dropWhile (· != '/') = path := by
    cases path with
    | nil => exact ⟨rfl, rfl⟩
    | cons c path =>
      have hc : c = '/' := by simpa using hroot
      subst hc
      exact ⟨rfl, rfl⟩
  rw [takeWhile_append_of_pos hne, dropWhile_append_of_pos hne, hpath.1, hpath.2,
    append_nil]
  exact ⟨rfl, rfl⟩

/-- The parts of a URL with a scheme and an authority. -/
structure Parts where
  scheme : List Char
  authority : List Char
  path : List Char
  query : Option (List Char)
  fragment : Option (List Char)
  isScheme : SchemeText scheme
  authorityEnd : ∀ c ∈ ['/', '?', '#'], c ∉ authority
  root : path = [] ∨ path.head? = some '/'
  pathEnd : ∀ c ∈ ['?', '#'], c ∉ path
  queryEnd : '#' ∉ delimited '?' query

namespace Parts

variable (p : Parts)

/-- The text up to the query. -/
def front : List Char := p.scheme ++ ':' :: '/' :: '/' :: (p.authority ++ p.path)

def text : List Char := p.front ++ delimited '?' p.query ++ delimited '#' p.fragment

theorem notMem_front {c : Char} (hscheme : isSchemeChar c = false) (hc : c ≠ ':')
    (hslash : c ≠ '/') (hauthority : c ∉ p.authority) (hpath : c ∉ p.path) : c ∉ p.front := by
  have hs : c ∉ p.scheme := by
    intro hmem
    rw [p.isScheme.chars c hmem] at hscheme
    cases hscheme
  simp [front, hs, hc, hslash, hauthority, hpath]

theorem hash_notMem : '#' ∉ p.front ++ delimited '?' p.query :=
  not_mem_append (p.notMem_front (by decide) (by decide) (by decide)
    (p.authorityEnd _ (by decide)) (p.pathEnd _ (by decide))) p.queryEnd

theorem span_authority : (p.authority ++ p.path).takeWhile (· != '/') = p.authority ∧
    (p.authority ++ p.path).dropWhile (· != '/') = p.path :=
  span_host (p.authorityEnd _ (by decide)) p.root

section Read

variable (ipLiteral : List Char → Except Error (List Char))

/-- What the parts are read as. -/
def read : Except Error URL :=
  match parseAuthority ipLiteral p.authority with
  | .error err => .error err
  | .ok (user, host) =>
    match URL.setPath
      { scheme := p.scheme.map Char.toLower, user := user, host := host
        forceQuery := decide (p.query = some []), rawQuery := p.query.getD [] } p.path with
    | .error err => .error err
    | .ok u =>
      match p.fragment.getD [] with
      | [] => .ok u
      | c :: f => u.setFragment (c :: f)

variable {ipLiteral}

theorem parseRest_front {u : URL} (hscheme : u.scheme ≠ []) :
    parseRest ipLiteral u ('/' :: '/' :: (p.authority ++ p.path)) =
      match parseAuthority ipLiteral p.authority with
      | .error err => .error err
      | .ok (user, host) => { u with user := user, host := host }.setPath p.path := by
  obtain ⟨htake, hdrop⟩ := p.span_authority
  rw [parseRest, if_neg (by simp), if_neg (by simp), if_pos ⟨.inl hscheme, by simp⟩]
  simp only [drop_succ_cons, drop_zero, htake, hdrop]

/-- **How a text of these parts is read.** -/
theorem parse_text : parse ipLiteral p.text =
    if (p.front ++ delimited '?' p.query).any isControl then .error .controlCharacter
    else p.read ipLiteral := by
  have hquestion : '?' ∉ '/' :: '/' :: (p.authority ++ p.path) := by
    simp [p.authorityEnd '?' (by decide), p.pathEnd '?' (by decide)]
  have hassoc : p.front ++ delimited '?' p.query =
      p.scheme ++ ':' :: ('/' :: '/' :: (p.authority ++ p.path) ++ delimited '?' p.query) := by
    simp [front]
  have hstar : p.front ++ delimited '?' p.query ≠ ['*'] := by
    intro heq
    have hmem : ':' ∈ p.front ++ delimited '?' p.query := by simp [front]
    rw [heq] at hmem
    exact absurd hmem (by decide)
  have hscheme : p.scheme.map Char.toLower ≠ [] := by
    obtain ⟨c, cs, hcs, -⟩ := p.isScheme.alpha
    simp [hcs]
  rw [text, parse, cut_delimited p.hash_notMem, parseNoFragment]
  split_ifs with hcontrol
  · rfl
  · rw [hassoc, p.isScheme.getScheme]
    simp only [cutQuery_delimited _ hquestion]
    rw [p.parseRest_front hscheme, read]
    cases parseAuthority ipLiteral p.authority <;> rfl

end Read

end Parts

/-! ## Texts of such parts -/

section Exists

variable {ipLiteral : List Char → Except Error (List Char)}

variable {u : URL}

theorem setPath_host {v : URL} {p : List Char} (h : u.setPath p = .ok v) :
    v.scheme = u.scheme ∧ v.host = u.host := by
  rw [URL.setPath] at h
  split at h
  · cases h
  cases h
  exact ⟨rfl, rfl⟩

variable {rest : List Char}

/-- A rest that gives a host begins with it. -/
theorem authority_of_parseRest {v : URL} (h : parseRest ipLiteral u rest = .ok v)
    (hnone : u.host = []) (hhost : v.host ≠ []) :
    v.scheme = u.scheme ∧ ∃ rest', rest = '/' :: '/' :: rest' := by
  rw [parseRest] at h
  split_ifs at h with hopaque hcolon hauthority hempty
  · cases h
    exact absurd hnone hhost
  · obtain ⟨rest', rfl⟩ := hauthority.2
    dsimp only at h
    split at h
    · cases h
    · exact ⟨(setPath_host h).1, rest', rfl⟩
  · exact absurd ((setPath_host h).2.trans hnone) hhost
  · exact absurd ((setPath_host h).2.trans hnone) hhost

variable {text : List Char}

theorem parseNoFragment_of_parse (h : parse ipLiteral text = .ok u) :
    ∃ v, parseNoFragment ipLiteral (cut '#' text).1 = .ok v ∧ v.scheme = u.scheme ∧
      v.host = u.host := by
  rw [parse] at h
  split at h
  · cases h
  rename_i v hv
  refine ⟨v, hv, ?_⟩
  split at h
  · cases h
    exact ⟨rfl, rfl⟩
  · rw [URL.setFragment] at h
    split at h
    · cases h
    cases h
    exact ⟨rfl, rfl⟩

theorem parse_fragment {fragment : List Char} (htext : '#' ∉ text) (hne : fragment ≠ []) :
    parse ipLiteral (text ++ '#' :: fragment) =
      (parse ipLiteral text).bind (·.setFragment fragment) := by
  obtain ⟨c, cs, rfl⟩ := exists_cons_of_ne_nil hne
  rw [parse, parse, cut_append htext, cut_of_notMem htext]
  cases parseNoFragment ipLiteral text <;> rfl

/-- Where the authority of a text ends, its path begins. -/
def Parts.ofRest {scheme rest : List Char} {query : Option (List Char)}
    (hscheme : SchemeText scheme) (hquestion : '?' ∉ rest)
    (hhash : '#' ∉ rest ++ delimited '?' query) (fragment : Option (List Char)) : Parts where
  scheme := scheme
  authority := rest.takeWhile (· != '/')
  path := rest.dropWhile (· != '/')
  query := query
  fragment := fragment
  isScheme := hscheme
  authorityEnd := by
    have htake : ∀ c ∉ rest, c ∉ rest.takeWhile (· != '/') := fun c hc hmem =>
      hc (( takeWhile_prefix _).subset hmem)
    intro c hc
    simp only [mem_cons, not_mem_nil, or_false] at hc
    rcases hc with rfl | rfl | rfl
    · exact fun hmem => absurd (mem_takeWhile_imp hmem) (by decide)
    · exact htake _ hquestion
    · exact htake _ fun hmem => hhash (mem_append_left _ hmem)
  root := by
    cases hpath : rest.dropWhile (· != '/') with
    | nil => exact .inl rfl
    | cons c path =>
      have hc := head_dropWhile_not (l := rest) (· != '/') (by simp [hpath])
      simp only [hpath, head_cons, bne_eq_false_iff_eq] at hc
      exact .inr (by rw [hc]; rfl)
  pathEnd := by
    have hdrop : ∀ c ∉ rest, c ∉ rest.dropWhile (· != '/') := fun c hc hmem =>
      hc ((dropWhile_suffix _).subset hmem)
    intro c hc
    simp only [mem_cons, not_mem_nil, or_false] at hc
    rcases hc with rfl | rfl
    · exact hdrop _ hquestion
    · exact hdrop _ fun hmem => hhash (mem_append_left _ hmem)
  queryEnd := fun hmem => hhash (mem_append_right _ hmem)

theorem Parts.front_ofRest {scheme : List Char} {query : Option (List Char)}
    (hscheme : SchemeText scheme) (hquestion : '?' ∉ rest)
    (hhash : '#' ∉ rest ++ delimited '?' query) (fragment : Option (List Char)) :
    (ofRest hscheme hquestion hhash fragment).front = scheme ++ ':' :: '/' :: '/' :: rest := by
  rw [front]
  simp only [ofRest, takeWhile_append_dropWhile]

/-- **What has a scheme and a host is of such parts.** -/
theorem exists_parts (h : parse ipLiteral text = .ok u) (hscheme : u.scheme ≠ [])
    (hhost : u.host ≠ []) : ∃ p : Parts, text = p.text ∧ p.read ipLiteral = .ok u := by
  -- once the text is one of parts, it is read as they are
  suffices hparts : ∃ p : Parts, text = p.text by
    obtain ⟨p, rfl⟩ := hparts
    rw [p.parse_text] at h
    split_ifs at h
    exact ⟨p, rfl, h⟩
  obtain ⟨htext, hhash⟩ := cut_split '#' text
  obtain ⟨v, hv, hvscheme, hvhost⟩ := parseNoFragment_of_parse h
  generalize (cut '#' text).1 = front at *
  generalize (cut '#' text).2 = fragment at *
  rw [← hvscheme] at hscheme
  rw [← hvhost] at hhost
  rw [parseNoFragment] at hv
  split_ifs at hv with hcontrol hstar
  · cases hv
    exact absurd rfl hscheme
  · split at hv
    · cases hv
    rename_i scheme rest hget
    obtain ⟨query, hrest, hquestion⟩ := cutQuery_split (scheme.map Char.toLower) rest
    have hkeeps : (cutQuery { scheme := scheme.map Char.toLower } rest).1.scheme =
          scheme.map Char.toLower ∧
        (cutQuery { scheme := scheme.map Char.toLower } rest).1.host = [] := by
      rw [cutQuery]
      split_ifs <;> exact ⟨rfl, rfl⟩
    have hparse : parseRest ipLiteral (cutQuery { scheme := scheme.map Char.toLower } rest).1
        (cutQuery { scheme := scheme.map Char.toLower } rest).2 = .ok v := hv
    obtain ⟨hsame, rest', hslashes⟩ := authority_of_parseRest hparse hkeeps.2 hhost
    rw [hslashes] at hrest hquestion
    have hne : scheme ≠ [] := by
      rintro rfl
      rw [hkeeps.1] at hsame
      exact hscheme hsame
    obtain ⟨hisScheme, rfl⟩ := schemeText_of_getScheme hget hne
    rw [hrest] at hhash htext
    have hquestion' : '?' ∉ rest' := by simpa using hquestion
    have hhash' : '#' ∉ rest' ++ delimited '?' query := by
      simp only [mem_append, mem_cons, not_or] at hhash ⊢
      exact ⟨hhash.2.2.1.2.2, hhash.2.2.2⟩
    refine ⟨Parts.ofRest hisScheme hquestion' hhash' fragment, ?_⟩
    rw [htext, Parts.text, Parts.front_ofRest]
    simp [Parts.ofRest]

/-- What the parts of a URL are, if they are read. -/
theorem Parts.read_spec {p : Parts} (h : p.read ipLiteral = .ok u) :
    u.scheme = p.scheme.map Char.toLower ∧ u.opaqueText = [] ∧
      u.forceQuery = decide (p.query = some []) ∧
      parseAuthority ipLiteral p.authority = .ok (u.user, u.host) ∧
      unescape .path p.path = .ok u.path ∧
      u.rawPath = if escape .path u.path = p.path then [] else p.path := by
  rw [Parts.read] at h
  split at h
  · cases h
  rename_i user host hauthority
  split at h
  · cases h
  rename_i v hv
  have hsame : u = { v with fragment := u.fragment, rawFragment := u.rawFragment } := by
    split at h
    · cases h
      rfl
    · rw [URL.setFragment] at h
      split at h
      · cases h
      cases h
      rfl
  rw [URL.setPath] at hv
  split at hv
  · cases hv
  rename_i path hpath
  cases hv
  rw [hsame]
  exact ⟨rfl, rfl, rfl, hauthority, hpath, rfl⟩

theorem head_of_parse (h : parse ipLiteral text = .ok u) (hscheme : u.scheme ≠ [])
    (hhost : u.host ≠ []) : u.scheme.head? = text.head?.map Char.toLower := by
  obtain ⟨p, rfl, hread⟩ := exists_parts h hscheme hhost
  obtain ⟨c, cs, hcs, -⟩ := p.isScheme.alpha
  rw [(Parts.read_spec hread).1, Parts.text, Parts.front, hcs]
  rfl

end Exists

end NatProxy.Lib.GoURL
