import NatProxy.Lib.TextParts

/-!
# The name and the password in one text

Model of `generatePassword` and `parseNamePassword` (`lib/utils/host_auth.dart`). A receiver types
the name of a device and its password into one field, in one of three documented spellings:
`name | password`, `name:password` and `name password`.

The four separators are tried in a fixed order, each at its last occurrence, and only then the text
is split at its blanks. So a separator in the name takes the place of one that comes later in this
order, and the words of a name are put together again with one space. `spellings_iff` says for which
names and passwords all three spellings are read as they are meant; `barInName` is a name for which
they are not.
-/

namespace NatProxy.App.NamePassword

open Lib NatProxy.Lib.Text Lib.TextParts List

def trim (s : List Char) : List Char := Text.trim isDartSpace s

/-! ## Passwords -/

def alphabet : List Char := "ABCDEFGHJKLMNPQRSTUVWXYZabcdefghijkmnopqrstuvwxyz23456789".toList

/-- A text that `generatePassword` can return. -/
structure Password where
  text : List Char
  chars : ∀ c ∈ text, c ∈ alphabet

/-- `generatePassword`, for the numbers that `rnd.nextInt` returns. -/
def generatePassword (draws : List (Fin alphabet.length)) : Password where
  text := draws.map alphabet.get
  chars := by
    intro c hc
    obtain ⟨i, -, rfl⟩ := mem_map.mp hc
    exact get_mem alphabet i

/-! ## Reading -/

/-- The record that `parseNamePassword` returns. -/
structure Credentials where
  name : List Char
  password : List Char
deriving DecidableEq, Repr

def separators : List Char := ['|', ':', '#', '@']

/-- Split at the last `sep`, unless nothing is before or after it. -/
def splitAtLast (raw : List Char) (sep : Char) : Option Credentials :=
  match cutLast sep raw with
  | some (before, after) =>
    if before ≠ [] ∧ after ≠ [] then some ⟨trim before, trim after⟩ else none
  | none => none

/-- What `\s` matches: what is trimmed, without the control character U+0085. -/
def isRegExpSpace (c : Char) : Bool := isDartSpace c && c != '\u0085'

/-- The last word is the password, and the others are the name. -/
def splitAtBlanks (raw : List Char) : Credentials :=
  let parts := fields isRegExpSpace raw
  if parts.length < 2 then ⟨[], []⟩
  else ⟨trim ([' '].intercalate parts.dropLast), parts.getLast?.getD []⟩

def parseNamePassword (input : List Char) : Credentials :=
  let raw := trim input
  if raw = [] then ⟨[], []⟩
  else
    match separators.findSome? (splitAtLast raw) with
    | some result => result
    | none => splitAtBlanks raw

/-! ## Names -/

/-- A name that is not blank, without blanks at its ends. -/
structure DeviceName where
  text : List Char
  ne : text ≠ []
  trimmed : trim text = text

theorem DeviceName.tight (name : DeviceName) : Tight isDartSpace name.text := by
  have htight := tight_trim (p := isDartSpace) (s := name.text)
  rw [show Text.trim isDartSpace name.text = name.text from name.trimmed] at htight
  exact htight name.ne

/-- The name is of words with one space between them. -/
def SingleSpaced (name : List Char) : Prop :=
  ∃ words : List (List Char), (∀ word ∈ words, IsWord isRegExpSpace word) ∧
    [' '].intercalate words = name

theorem singleSpaced_iff {name : List Char} :
    SingleSpaced name ↔ [' '].intercalate (fields isRegExpSpace name) = name := by
  constructor
  · rintro ⟨words, hwords, rfl⟩
    rw [fields_intercalate (by decide) hwords]
  · intro hname
    exact ⟨_, fun word => isWord_of_mem_fields, hname⟩

/-! ## Characters of a password -/

theorem alphabet_notBlank : ∀ c ∈ alphabet, isDartSpace c = false :=
  forall_mem_eq_false (by decide)

theorem alphabet_notSeparator : ∀ c ∈ alphabet, c ∉ separators :=
  forall_mem_of_all (by decide)

section

variable {password : Password}

theorem Password.tight (hne : password.text ≠ []) : Tight isDartSpace password.text where
  ne := hne
  head := fun c hc => alphabet_notBlank c (password.chars c (mem_of_mem_head? hc))
  last := fun c hc => alphabet_notBlank c (password.chars c (mem_of_getLast? hc))

theorem Password.isWord (hne : password.text ≠ []) : IsWord isRegExpSpace password.text where
  ne := hne
  chars := by
    intro c hc
    rw [isRegExpSpace, alphabet_notBlank c (password.chars c hc), Bool.false_and]

theorem Password.notMem {sep : Char} (hsep : sep ∈ separators) : sep ∉ password.text :=
  fun hmem => alphabet_notSeparator sep (password.chars sep hmem) hsep

end

/-! ## One separator -/

section

variable {sep : Char} {name rest : List Char}

theorem splitAtLast_append {before after : List Char} (hbefore : before ≠ [])
    (hafter : after ≠ []) (hsep : sep ∉ after) :
    splitAtLast (before ++ sep :: after) sep = some ⟨trim before, trim after⟩ := by
  rw [splitAtLast, cutLast_append sep before hsep]
  exact if_pos ⟨hbefore, hafter⟩

theorem splitAtLast_eq_none (hname : name ≠ []) (hrest : sep ∉ rest) (htail : sep ∉ name.tail) :
    splitAtLast (name ++ rest) sep = none := by
  obtain ⟨c, tail, rfl⟩ := exists_cons_of_ne_nil hname
  have hafter : sep ∉ tail ++ rest := not_mem_append htail hrest
  by_cases hc : c = sep
  · subst hc
    have hcut := cutLast_append c [] hafter
    rw [nil_append] at hcut
    rw [splitAtLast, cons_append, hcut]
    exact if_neg fun h => h.1 rfl
  · have hnone : sep ∉ c :: tail ++ rest := by
      rw [cons_append, mem_cons, not_or]
      exact ⟨fun h => hc h.symm, hafter⟩
    rw [splitAtLast, cutLast_of_notMem hnone]

theorem splitAtLast_inside (hne : rest ≠ []) (hrest : sep ∉ rest) (htail : sep ∈ name.tail) :
    ∃ result, splitAtLast (name ++ rest) sep = some result ∧ result.name ≠ name := by
  cases name with
  | nil => cases htail
  | cons c tail =>
    obtain ⟨before, after, hsplit, hafter⟩ := exists_last_of_mem htail
    rw [tail_cons] at hsplit
    subst hsplit
    have hassoc : c :: (before ++ sep :: after) ++ rest =
        (c :: before) ++ sep :: (after ++ rest) := by simp
    rw [hassoc, splitAtLast_append (cons_ne_nil c before) (by simp [hne])
      (not_mem_append hafter hrest)]
    refine ⟨_, rfl, ?_⟩
    -- what is before the separator is shorter than the name
    intro hname
    have hle := length_trim_le (p := isDartSpace) (c :: before)
    have hlength := congrArg length hname
    simp only [trim, length_cons, length_append] at hle hlength
    omega

end

/-! ## All separators -/

section

variable {seps : List Char} {name rest : List Char}

theorem findSome_eq_none (hname : name ≠ []) (hrest : ∀ sep ∈ seps, sep ∉ rest)
    (htail : ∀ sep ∈ seps, sep ∉ name.tail) :
    seps.findSome? (splitAtLast (name ++ rest)) = none := by
  rw [findSome?_eq_none_iff]
  intro sep hsep
  exact splitAtLast_eq_none hname (hrest sep hsep) (htail sep hsep)

theorem findSome_inside (hname : name ≠ []) (hne : rest ≠ [])
    (hrest : ∀ sep ∈ seps, sep ∉ rest) (hinside : ∃ sep ∈ seps, sep ∈ name.tail) :
    ∃ result, seps.findSome? (splitAtLast (name ++ rest)) = some result ∧
      result.name ≠ name := by
  induction seps with
  | nil => simp at hinside
  | cons sep seps ih =>
    have hsep := hrest sep mem_cons_self
    rw [findSome?_cons]
    by_cases htail : sep ∈ name.tail
    · grind [splitAtLast_inside]
    · rw [splitAtLast_eq_none hname hsep htail]
      refine ih (fun s hs => hrest s (mem_cons_of_mem sep hs)) ?_
      obtain ⟨s, hs, hmem⟩ := hinside
      rcases mem_cons.mp hs with rfl | hs
      · exact absurd hmem htail
      · exact ⟨s, hs, hmem⟩

end

/-! ## The three spellings -/

theorem parse_of_separator {input : List Char} {result : Credentials} (hraw : trim input ≠ [])
    (h : separators.findSome? (splitAtLast (trim input)) = some result) :
    parseNamePassword input = result := by
  simp only [parseNamePassword, hraw, if_false, h]

theorem parse_of_blanks {input : List Char} (hraw : trim input ≠ [])
    (h : separators.findSome? (splitAtLast (trim input)) = none) :
    parseNamePassword input = splitAtBlanks (trim input) := by
  simp only [parseNamePassword, hraw, if_false, h]

theorem splitAtBlanks_password_ne {raw : List Char} (h : (splitAtBlanks raw).name ≠ []) :
    (splitAtBlanks raw).password ≠ [] := by
  simp only [splitAtBlanks] at h ⊢
  split_ifs at h ⊢ with hshort
  · exact absurd rfl h
  · have hne : fields isRegExpSpace raw ≠ [] := by
      intro hnil
      rw [hnil] at hshort
      exact hshort (by decide)
    rw [getLast?_eq_getLast_of_ne_nil hne]
    exact (isWord_of_mem_fields (getLast_mem hne)).ne

theorem password_ne {input : List Char} (h : (parseNamePassword input).name ≠ []) :
    (parseNamePassword input).password ≠ [] := by
  by_cases hraw : trim input = []
  · rw [parseNamePassword, if_pos hraw] at h
    exact absurd rfl h
  · cases hfind : separators.findSome? (splitAtLast (trim input)) with
    | none =>
      rw [parse_of_blanks hraw hfind] at h ⊢
      exact splitAtBlanks_password_ne h
    | some result =>
      obtain ⟨sep, -, hsplit⟩ := exists_of_findSome?_eq_some hfind
      rw [parse_of_separator hraw hfind]
      rw [splitAtLast] at hsplit
      split at hsplit
      case h_2 => cases hsplit
      rename_i before after hcut
      split_ifs at hsplit with hboth
      cases hsplit
      -- the last character of the input is after the separator and is no blank
      intro hblank
      have hsome : after.getLast? ≠ none := mt getLast?_eq_none_iff.mp hboth.2
      obtain ⟨c, hc⟩ := Option.ne_none_iff_exists'.mp hsome
      have hlast : (trim input).getLast? = some c := by
        rw [eq_of_cutLast hcut, getLast?_append, getLast?_cons, hc]
        rfl
      have hnot := (tight_trim (p := isDartSpace) hraw).last c hlast
      rw [forall_of_trim_eq_nil hblank c (mem_of_getLast? hc)] at hnot
      cases hnot

section

variable (name : DeviceName) {password : Password}

theorem trim_spelling (middle : List Char) (hne : password.text ≠ []) :
    trim (name.text ++ middle ++ password.text) = name.text ++ middle ++ password.text :=
  (name.tight.append middle (Password.tight hne)).trim_self

theorem spelling_ne (middle : List Char) (hne : password.text ≠ []) :
    trim (name.text ++ middle ++ password.text) ≠ [] := by
  rw [trim_spelling name middle hne]
  simp [name.ne]

theorem parse_bar (hne : password.text ≠ []) :
    parseNamePassword (name.text ++ " | ".toList ++ password.text) =
      ⟨name.text, password.text⟩ := by
  have hbar : '|' ∉ ' ' :: password.text := by
    rw [mem_cons, not_or]
    exact ⟨by decide, Password.notMem (by decide)⟩
  have hname : trim (name.text ++ [' ']) = name.text :=
    name.tight.trim [] [' '] (by simp) (forall_mem_of_all (by decide))
  have hpassword : trim (' ' :: password.text) = password.text := by
    have htrim := (Password.tight hne).trim [' '] [] (forall_mem_of_all (by decide)) (by simp)
    rwa [append_nil] at htrim
  have hassoc : name.text ++ " | ".toList ++ password.text =
      (name.text ++ [' ']) ++ '|' :: (' ' :: password.text) := by simp
  apply parse_of_separator (spelling_ne name _ hne)
  rw [trim_spelling name _ hne, hassoc, separators, findSome?_cons,
    splitAtLast_append (by simp) (by simp) hbar, hname, hpassword]

theorem parse_colon_iff (hne : password.text ≠ []) :
    parseNamePassword (name.text ++ [':'] ++ password.text) = ⟨name.text, password.text⟩ ↔
      '|' ∉ name.text.tail := by
  have hbar : '|' ∉ ':' :: password.text := by
    rw [mem_cons, not_or]
    exact ⟨by decide, Password.notMem (by decide)⟩
  have hassoc : name.text ++ [':'] ++ password.text = name.text ++ ':' :: password.text := by simp
  have hraw := spelling_ne name [':'] hne
  have htrim := trim_spelling name [':'] hne
  constructor
  · intro hparse htail
    obtain ⟨result, hresult, hcut⟩ := splitAtLast_inside (cons_ne_nil ':' _) hbar htail
    have hfind : separators.findSome? (splitAtLast (trim (name.text ++ [':'] ++ password.text))) =
        some result := by
      rw [htrim, hassoc, separators, findSome?_cons, hresult]
    rw [parse_of_separator hraw hfind] at hparse
    exact hcut (congrArg Credentials.name hparse)
  · intro htail
    apply parse_of_separator hraw
    rw [htrim, hassoc, separators, findSome?_cons, splitAtLast_eq_none name.ne hbar htail]
    have hpassword : trim password.text = password.text := (Password.tight hne).trim_self
    simp only [findSome?_cons]
    rw [splitAtLast_append name.ne hne (Password.notMem (by decide)), name.trimmed, hpassword]

theorem splitAtBlanks_spelling (hne : password.text ≠ [])
    (hwords : fields isRegExpSpace name.text ≠ []) :
    splitAtBlanks (name.text ++ ' ' :: password.text) =
      ⟨trim ([' '].intercalate (fields isRegExpSpace name.text)), password.text⟩ := by
  have hfields : fields isRegExpSpace (name.text ++ ' ' :: password.text) =
      fields isRegExpSpace name.text ++ [password.text] := by
    rw [fields_append_cons (by decide), (Password.isWord hne).fields]
  have hpos := length_pos_iff.mpr hwords
  simp only [splitAtBlanks, hfields, length_append, length_singleton,
    dropLast_concat, getLast?_concat, Option.getD_some]
  rw [if_neg (by omega)]

theorem fields_name_ne : fields isRegExpSpace name.text ≠ [] := by
  obtain ⟨c, tail, htext⟩ := exists_cons_of_ne_nil name.ne
  have hc : isDartSpace c = false := name.tight.head c (by rw [htext]; rfl)
  rw [htext]
  apply fields_cons_ne_nil
  rw [isRegExpSpace, hc, Bool.false_and]

theorem parse_space_iff (hne : password.text ≠ []) :
    parseNamePassword (name.text ++ [' '] ++ password.text) = ⟨name.text, password.text⟩ ↔
      (∀ sep ∈ separators, sep ∉ name.text.tail) ∧ SingleSpaced name.text := by
  have hrest : ∀ sep ∈ separators, sep ∉ ' ' :: password.text := by
    intro sep hsep
    rw [mem_cons, not_or]
    refine ⟨?_, Password.notMem hsep⟩
    rintro rfl
    exact absurd hsep (by decide)
  have hassoc : name.text ++ [' '] ++ password.text = name.text ++ ' ' :: password.text := by simp
  have hraw := spelling_ne name [' '] hne
  have htrim := trim_spelling name [' '] hne
  by_cases hinside : ∃ sep ∈ separators, sep ∈ name.text.tail
  · obtain ⟨result, hresult, hcut⟩ :=
      findSome_inside name.ne (cons_ne_nil ' ' password.text) hrest hinside
    rw [← hassoc, ← htrim] at hresult
    rw [parse_of_separator hraw hresult]
    obtain ⟨sep, hsep, hmem⟩ := hinside
    constructor
    · intro hparse
      exact absurd (congrArg Credentials.name hparse) hcut
    · intro hname
      exact absurd hmem (hname.1 sep hsep)
  · have hnone : ∀ sep ∈ separators, sep ∉ name.text.tail :=
      fun sep hsep hmem => hinside ⟨sep, hsep, hmem⟩
    have hfind := findSome_eq_none name.ne hrest hnone
    rw [← hassoc, ← htrim] at hfind
    rw [parse_of_blanks hraw hfind, htrim, hassoc, splitAtBlanks_spelling name hne
      (fields_name_ne name), singleSpaced_iff]
    constructor
    · intro hparse
      have hname : trim ([' '].intercalate (fields isRegExpSpace name.text)) = name.text :=
        congrArg Credentials.name hparse
      refine ⟨hnone, ?_⟩
      -- the words together are not longer than the name, so nothing was trimmed
      have hle := length_intercalate_fields_le (p := isRegExpSpace) ' ' name.text
      have hlength := congrArg length hname
      have hself := trim_eq_self_of_length_le (p := isDartSpace) (hle.trans hlength.ge)
      exact hself.symm.trans hname
    · rintro ⟨-, hname⟩
      rw [hname, name.trimmed]

/-- All three spellings are read as they are meant: there is a password, no separator in the name
after its first character, and one space between its words. -/
theorem spellings_iff (password : Password) :
    (parseNamePassword (name.text ++ " | ".toList ++ password.text) =
        ⟨name.text, password.text⟩ ∧
      parseNamePassword (name.text ++ ":".toList ++ password.text) =
        ⟨name.text, password.text⟩ ∧
      parseNamePassword (name.text ++ " ".toList ++ password.text) =
        ⟨name.text, password.text⟩) ↔
    password.text ≠ [] ∧ (∀ sep ∈ separators, sep ∉ name.text.tail) ∧
      SingleSpaced name.text := by
  constructor
  · rintro ⟨hbar, -, hspace⟩
    have hne : password.text ≠ [] := by
      have hpassword := @password_ne (name.text ++ " | ".toList ++ password.text)
      rw [hbar] at hpassword
      exact hpassword name.ne
    exact ⟨hne, (parse_space_iff name hne).mp hspace⟩
  · rintro ⟨hne, hseps, hspaced⟩
    exact ⟨parse_bar name hne, (parse_colon_iff name hne).mpr (hseps '|' (by decide)),
      (parse_space_iff name hne).mpr ⟨hseps, hspaced⟩⟩

end

def pixel : DeviceName := ⟨"Pixel|7".toList, by decide, by decide⟩

def pixelPassword : Password := ⟨"kG7mPq2x".toList, forall_mem_of_all (by decide)⟩

/-- A bar in the name is taken for the separator. -/
theorem barInName : parseNamePassword (pixel.text ++ ":".toList ++ pixelPassword.text) =
    ⟨"Pixel".toList, "7:kG7mPq2x".toList⟩ := by
  decide

/-- Two spaces in the name are read as one. -/
example : parseNamePassword "My  Phone kG7mPq2x".toList =
    ⟨"My Phone".toList, "kG7mPq2x".toList⟩ := by decide

end NatProxy.App.NamePassword
