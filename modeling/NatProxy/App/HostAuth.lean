import NatProxy.Server.ConnectionCode

/-!
# The app's password check

Model of `lib/utils/host_auth.dart` and of `_resolveByNameAndPassword`
(`lib/screens/client_screen.dart`). A host derives a UUID from its password and starts the server
with it; a receiver picks the host out of the discovery list by its name and accepts it when the
UUID in the connection code is the one of the password.

`tryExtractUuidFromConnectionCode` expects compressed JSON under the base64. The server does not
compress: its codes begin with a brace, and no stream of zlib or gzip does. So every password is
refused (`passwordMatchesCode_connectionCode`, `agrees_iff`), the right one, too
(`rightPassword_refused`).
-/

namespace NatProxy.App.HostAuth

open Lib NatProxy.Lib.Json NatProxy.Server Server.Code

/-- What the app takes from its libraries; `ZLibCodec` knows two formats. -/
structure Env where
  inflate : List UInt8 → Option (List UInt8)
  gunzip : List UInt8 → Option (List UInt8)
  v5 : String → String → String
  v5_ne_empty : ∀ ns name, v5 ns name ≠ ""
  display : Value → String

def trim (s : String) : List Char := Text.trim Text.isDartSpace s.toList

section

variable (env : Env)

/-! ## The UUID of a password -/

def ns : String := "6ba7b810-9dad-11d1-80b4-00c04fd430c8"

def deriveUuidFromPassword (password : String) : String :=
  let p := trim password
  if p = [] then "" else env.v5 ns ("natproxy:" ++ String.ofList p)

def IsBlank (password : String) : Prop := trim password = []

instance (password : String) : Decidable (IsBlank password) :=
  inferInstanceAs (Decidable (trim password = []))

variable {env} in
theorem deriveUuidFromPassword_eq_empty_iff {password : String} :
    deriveUuidFromPassword env password = "" ↔ IsBlank password := by
  simp only [deriveUuidFromPassword, IsBlank]
  split_ifs with hblank
  · simp [hblank]
  · simp [hblank, env.v5_ne_empty]

/-! ## The UUID of a code -/

/-- `ZLibCodec().decoder.convert`: the header tells which of the two formats it is. -/
def zlibDecode : List UInt8 → Option (List UInt8)
  | cmf :: flg :: body =>
    if cmf = 0x1f ∧ flg = 0x8b then env.gunzip body
    else if (cmf.toNat * 256 + flg.toNat) % 31 ≠ 0 then none
    -- the compression method, the size of the window, and no preset dictionary
    else if cmf.toNat % 16 ≠ 8 ∨ cmf.toNat / 16 > 7 ∨ flg.toNat / 32 % 2 = 1 then none
    else env.inflate body
  | _ => none

/-- A member of a map that is not `null`; the last one of a name counts. -/
def lookup (members : List (List Char × Value)) (name : String) : Option Value :=
  match members.reverse.find? fun m => m.1 = name.toList with
  | some (_, .null) => none
  | some (_, v) => some v
  | none => none

def toString : Value → String
  | .scalar (.str s) => String.ofList s
  | v => env.display v

def uuidOf (members : List (List Char × Value)) : String :=
  match ((lookup members "uuid").or (lookup members "UUID")).or (lookup members "id") with
  | some v => toString env v
  | none => ""

/-- The text is empty, too, when one of the decoders throws. -/
def tryExtractUuidFromConnectionCode (code : String) : String :=
  match Base64.decode Base64.either true (trim code) with
  | none => ""
  | some bin =>
    match zlibDecode env bin with
    | none => ""
    | some inflated =>
      match (Text.utf8Decode inflated).bind parse with
      | some (.obj members) => uuidOf env members
      | _ => ""

def passwordMatchesCode (password code : String) : Bool :=
  let expected := deriveUuidFromPassword env password
  if expected = "" then false
  else tryExtractUuidFromConnectionCode env code == expected

structure ServerListing where
  name : String
  code : String
deriving DecidableEq, Repr

/-- `_resolveByNameAndPassword` on the list that it has; `toLowerCase` is that of Dart. -/
def resolveByNameAndPassword (toLowerCase : String → String) (servers : List ServerListing)
    (name password : String) : Option String :=
  let targetName := String.ofList (trim name)
  let pass := String.ofList (trim password)
  if targetName = "" ∨ pass = "" then none
  else
    match servers.find? fun s =>
      toLowerCase (String.ofList (trim s.name)) == toLowerCase targetName with
    | none => none
    | some hit => if passwordMatchesCode env pass hit.code then some hit.code else none

end

/-! ## The codes of the server -/

theorem isDartSpace_std_char : ∀ i < 64, Text.isDartSpace (Base64.std.char i) = false := by
  decide +kernel

theorem trim_encodeBase64 (data : List UInt8) :
    trim (encodeBase64 data) = Base64.encode Base64.std true data := by
  have hplain : ∀ c ∈ Base64.encode Base64.std true data, Text.isDartSpace c = false :=
    Base64.forall_mem_encode isDartSpace_std_char (by decide) data
  rw [trim, encodeBase64, String.toList_ofList, Text.trim_eq_self hplain]

theorem decode_trim_encodeBase64 (data : List UInt8) :
    Base64.decode Base64.either true (trim (encodeBase64 data)) = some data := by
  have hsame : Base64.encode Base64.either true data = Base64.encode Base64.std true data :=
    Base64.encode_congr (show Base64.either.char = Base64.std.char from rfl) true data
  rw [trim_encodeBase64, ← hsame, Base64.decode_encode]

theorem utf8Encode_marshal (info : Info) :
    ∃ rest, Text.utf8Encode (infoSchema.marshal info) = 0x7b :: rest := ⟨_, rfl⟩

section

variable (env : Env)

theorem zlibDecode_brace (rest : List UInt8) : zlibDecode env (0x7b :: rest) = none := by
  cases rest with
  | nil => rfl
  | cons flg body =>
    simp only [zlibDecode]
    split_ifs with hgzip hcheck hmethod
    · exact absurd hgzip.1 (by decide)
    · rfl
    · rfl
    · exact absurd (.inl (by decide)) hmethod

theorem tryExtractUuidFromConnectionCode_connectionCode (info : Info) :
    tryExtractUuidFromConnectionCode env (connectionCode info) = "" := by
  obtain ⟨rest, hrest⟩ := utf8Encode_marshal info
  simp only [tryExtractUuidFromConnectionCode, connectionCode, decode_trim_encodeBase64, hrest,
    zlibDecode_brace]

/-- **No password matches a code of the server.** -/
theorem passwordMatchesCode_connectionCode (password : String) (info : Info) :
    passwordMatchesCode env password (connectionCode info) = false := by
  simp only [passwordMatchesCode, tryExtractUuidFromConnectionCode_connectionCode]
  split_ifs with hempty
  · rfl
  · rw [beq_eq_false_iff_ne]
    exact Ne.symm hempty

/-- The password is the one that the UUID was derived from, as far as the UUID can tell. -/
def IsPasswordOf (password : String) (info : Info) : Prop :=
  info.uuid = deriveUuidFromPassword env password ∧ ¬ IsBlank password

/-- **The check agrees with the codes of the server** exactly on the wrong passwords. -/
theorem agrees_iff (password : String) (info : Info) :
    (passwordMatchesCode env password (connectionCode info) = true ↔
        IsPasswordOf env password info) ↔ ¬ IsPasswordOf env password info := by
  rw [passwordMatchesCode_connectionCode]
  simp

/-- So no host is ever found by its name and its password. -/
theorem resolveByNameAndPassword_none (toLowerCase : String → String)
    {servers : List ServerListing} (hcodes : ∀ s ∈ servers, ∃ info, s.code = connectionCode info)
    (name password : String) :
    resolveByNameAndPassword env toLowerCase servers name password = none := by
  simp only [resolveByNameAndPassword]
  split_ifs with hblank
  · rfl
  · split
    · rfl
    · rename_i hit hfind
      obtain ⟨info, hinfo⟩ := hcodes hit (List.mem_of_find?_eq_some hfind)
      rw [hinfo, passwordMatchesCode_connectionCode]
      rfl

end

/-! ## The right password -/

def hostEnv (uuid : String) : Start.Env :=
  { Start.demoEnv [Start.grantingClient] with
    unmarshal := fun _ cfg => .ok { cfg with uuid := uuid }
    startInstance := fun _ => none }

/-- The app refuses the password of a host, whatever its libraries do. -/
theorem passwordMatchesCode_of_host (env : Env) {password : String} (hne : ¬ IsBlank password) :
    ∃ info : Start.ConnectionInfo,
      (Start.startServer (hostEnv (deriveUuidFromPassword env password)) "settings" {}).1 =
          .ok info ∧
        info.uuid = deriveUuidFromPassword env password ∧
        passwordMatchesCode env password (connectionCode (fill info {})) = false := by
  have huuid : deriveUuidFromPassword env password ≠ "" := by
    rw [ne_eq, deriveUuidFromPassword_eq_empty_iff]
    exact hne
  refine ⟨_, rfl, ?_, passwordMatchesCode_connectionCode env _ _⟩
  simp [Start.ServerConfig.uuidOrRandom, huuid]

def lenientEnv : Env where
  inflate := some
  gunzip := some
  v5 ns name := ns ++ "/" ++ name
  v5_ne_empty ns name := by simp
  display _ := ""

theorem rightPassword_refused : ∃ info : Start.ConnectionInfo,
    (Start.startServer (hostEnv (deriveUuidFromPassword lenientEnv "secret")) "settings" {}).1 =
        .ok info ∧
      IsPasswordOf lenientEnv "secret" (fill info {}) ∧
      passwordMatchesCode lenientEnv "secret" (connectionCode (fill info {})) = false := by
  have hne : ¬ IsBlank "secret" := by decide
  obtain ⟨info, hstart, huuid, hrefused⟩ := passwordMatchesCode_of_host lenientEnv hne
  exact ⟨info, hstart, ⟨huuid, hne⟩, hrefused⟩

theorem resolveByNameAndPassword_none_single : resolveByNameAndPassword lenientEnv id
    [⟨"host", connectionCode (fill {} {})⟩] "host" "secret" = none :=
  resolveByNameAndPassword_none lenientEnv id (by simp) _ _

end NatProxy.App.HostAuth
