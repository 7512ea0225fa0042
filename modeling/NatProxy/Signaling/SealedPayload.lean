import NatProxy.Lib.AEAD
import NatProxy.Lib.Base64
import NatProxy.Signaling.Supabase

/-!
# Sealed payloads

`golib/signaling/crypto.go` and what `golib/signaling/signaling.go` does with a key: a post seals
its payload with AES-GCM under a key that is derived from `obfsKey` and writes it in base64, and a
getter opens what it got. The random nonce of a post is part of it.

Nothing in a sealed payload says for which slot it was made, and `replayGuard.Check` is switched
off. `accepted_iff`: however the signal server answers, a getter with a key accepts exactly what
somebody has sealed under the key, of either slot and however old.
-/

namespace NatProxy.Signaling.SealedPayload

open Lib Lib.Text List Supabase

/-- AES-GCM, and `deriveSignalingKey`. -/
structure Cipher (Key : Type) where
  aead : AEAD Key 16
  deriveSignalingKey : Bytes → Key

def nonceSize : Nat := 12

abbrev Nonce := { nonce : Bytes // nonce.length = nonceSize }

def encodeBase64Signaling (data : Bytes) : String :=
  String.ofList (Base64.encode Base64.std true data)

def decodeBase64Signaling (s : String) : Option Bytes :=
  Base64.decodeLines Base64.std true s.toList

theorem decodeBase64Signaling_encodeBase64Signaling (data : Bytes) :
    decodeBase64Signaling (encodeBase64Signaling data) = some data := by
  rw [decodeBase64Signaling, encodeBase64Signaling, String.toList_ofList, Base64.decodeLines_encode]

theorem pollHTTP_stored {sdp : String} (h : sdp ≠ "") :
    pollHTTP [.stored (marshalPayload sdp)] = .ok sdp := by
  simp only [pollHTTP, readPayload_marshalPayload, if_neg h]

/-- `replayGuard.Check`, which is disabled. -/
def check (_nonce : Bytes) : Bool := true

/-- A post for a slot, by anybody. -/
structure Post where
  slot : Slot
  payload : String
  obfsKey : Bytes
  nonce : Nonce

/-- There is a key; an empty answer, which clears the slot, stays as it is. -/
def Post.IsSealed (p : Post) : Prop := p.obfsKey ≠ [] ∧ (p.slot = .answer → p.payload ≠ "")

instance (p : Post) : Decidable p.IsSealed := inferInstanceAs (Decidable (_ ∧ _))

section

variable {Key : Type} (cipher : Cipher Key)

def encryptPayload (nonce : Nonce) (data obfsKey : Bytes) : Bytes :=
  nonce.1 ++ cipher.aead.encrypt (cipher.deriveSignalingKey obfsKey) nonce.1 data

/-- The field `sdp` of the body. -/
def Post.sdp (p : Post) : String :=
  if p.IsSealed then
    encodeBase64Signaling (encryptPayload cipher p.nonce (utf8Encode p.payload.toList) p.obfsKey)
  else p.payload

/-- What has been sealed when these posts have been made. -/
def log (posts : List Post) : List (Sealed Key) :=
  (posts.filter fun p => p.IsSealed).map fun p =>
    ⟨cipher.deriveSignalingKey p.obfsKey, p.nonce.1, utf8Encode p.payload.toList⟩

theorem mem_log_iff {posts : List Post} {m : Sealed Key} :
    m ∈ log cipher posts ↔ ∃ p ∈ posts, p.IsSealed ∧
      m = ⟨cipher.deriveSignalingKey p.obfsKey, p.nonce.1, utf8Encode p.payload.toList⟩ := by
  simp only [log, mem_map, mem_filter, decide_eq_true_eq, and_assoc, eq_comm (b := m)]

theorem sdp_ne {p : Post} (hsealed : p.IsSealed) : p.sdp cipher ≠ "" := by
  intro hempty
  have hdecode := congrArg decodeBase64Signaling hempty
  rw [Post.sdp, if_pos hsealed, decodeBase64Signaling_encodeBase64Signaling] at hdecode
  have hnil : encryptPayload cipher p.nonce _ p.obfsKey = [] := Option.some.inj hdecode
  have hnonce := p.nonce.2
  rw [(append_eq_nil_iff.mp hnil).1] at hnonce
  cases hnonce

variable [DecidableEq Key]

def decryptPayload (log : List (Sealed Key)) (data obfsKey : Bytes) : Except String Bytes :=
  if data.length < nonceSize then .error "ciphertext too short"
  else
    match cipher.aead.tryOpen log (cipher.deriveSignalingKey obfsKey) (data.take nonceSize)
      (data.drop nonceSize) with
    | none => .error "decrypt"
    | some plaintext => .ok plaintext

def decryptSDPPayload (log : List (Sealed Key)) (encoded : String) (obfsKey : Bytes) :
    Except String String :=
  match decodeBase64Signaling encoded with
  | none => .error "decode encrypted SDP"
  | some data =>
    if nonceSize ≤ data.length ∧ check (data.take nonceSize) = false then
      .error "SDP replay detected"
    else
      match decryptPayload cipher log data obfsKey with
      | .error err => .error ("decrypt SDP: " ++ err)
      | .ok plaintext =>
        -- a Go string holds any bytes; what a post seals is always a text
        match utf8Decode plaintext with
        | none => .error "no text"
        | some text => .ok (String.ofList text)

/-- `GetSDPOffers`, `GetSDPAnswers` and `GetSDPOffersCtx`, over what the polls returned. -/
def getSDPs (log : List (Sealed Key)) (obfsKey : Bytes) :
    Except GetError String → Except SDPsError (List String)
  | .error err => .error (.get err)
  | .ok raw =>
    if obfsKey = [] then .ok (unmarshalSDPs raw)
    else
      match decryptSDPPayload cipher log raw obfsKey with
      | .error err => .error (.codec err)
      | .ok text => .ok (unmarshalSDPs text)

theorem decryptPayload_eq_ok_iff {log : List (Sealed Key)} {data obfsKey plaintext : Bytes} :
    decryptPayload cipher log data obfsKey = .ok plaintext ↔
      ∃ nonce : Nonce, data = encryptPayload cipher nonce plaintext obfsKey ∧
        ⟨cipher.deriveSignalingKey obfsKey, nonce.1, plaintext⟩ ∈ log := by
  rw [decryptPayload]
  constructor
  · intro h
    split_ifs at h with hshort
    split at h
    · cases h
    rename_i opened hopen
    cases h
    obtain ⟨hmem, hcipher⟩ := cipher.aead.tryOpen_eq_some_iff.mp hopen
    refine ⟨⟨data.take nonceSize, length_take_of_le (Nat.le_of_not_lt hshort)⟩, ?_, hmem⟩
    rw [encryptPayload, hcipher]
    exact (take_append_drop nonceSize data).symm
  · rintro ⟨nonce, rfl, hmem⟩
    rw [encryptPayload, if_neg (by simp [nonce.2]), take_left' nonce.2, drop_left' nonce.2,
      cipher.aead.tryOpen_eq_some_iff.mpr ⟨hmem, rfl⟩]

/-- Only what was sealed under the key is opened. -/
theorem exists_post_of_decryptSDPPayload {posts : List Post} {raw text : String} {obfsKey : Bytes}
    (h : decryptSDPPayload cipher (log cipher posts) raw obfsKey = .ok text) :
    ∃ p ∈ posts, p.IsSealed ∧
      cipher.deriveSignalingKey p.obfsKey = cipher.deriveSignalingKey obfsKey ∧
      p.payload = text := by
  simp only [decryptSDPPayload, check, Bool.true_eq_false, and_false, if_false] at h
  split at h
  · cases h
  split at h
  · cases h
  rename_i plaintext hopen
  obtain ⟨nonce, -, hmem⟩ := (decryptPayload_eq_ok_iff cipher).mp hopen
  obtain ⟨p, hp, hsealed, heq⟩ := (mem_log_iff cipher).mp hmem
  injection heq with hkey _ hplain
  rw [hplain, utf8Decode_utf8Encode] at h
  refine ⟨p, hp, hsealed, hkey.symm, ?_⟩
  rw [← Except.ok.inj h, String.ofList_toList]

theorem decryptSDPPayload_sdp {posts : List Post} {p : Post} (hp : p ∈ posts) (hsealed : p.IsSealed)
    {obfsKey : Bytes}
    (hkey : cipher.deriveSignalingKey p.obfsKey = cipher.deriveSignalingKey obfsKey) :
    decryptSDPPayload cipher (log cipher posts) (p.sdp cipher) obfsKey = .ok p.payload := by
  have hopen : decryptPayload cipher (log cipher posts)
      (encryptPayload cipher p.nonce (utf8Encode p.payload.toList) p.obfsKey) obfsKey =
        .ok (utf8Encode p.payload.toList) := by
    refine (decryptPayload_eq_ok_iff cipher).mpr ⟨p.nonce, ?_, ?_⟩
    · rw [encryptPayload, hkey, encryptPayload]
    · rw [← hkey]
      exact (mem_log_iff cipher).mpr ⟨p, hp, hsealed, rfl⟩
  rw [decryptSDPPayload, Post.sdp, if_pos hsealed, decodeBase64Signaling_encodeBase64Signaling]
  simp only [check, Bool.true_eq_false, and_false, if_false, hopen, utf8Decode_utf8Encode,
    String.ofList_toList]

/-- **What a getter accepts**, whatever the signal server answers: everything without a key, and
with a key what has been sealed under it. -/
theorem accepted_iff (posts : List Post) (obfsKey : Bytes) (sdps : List String) :
    (∃ polls, getSDPs cipher (log cipher posts) obfsKey (pollHTTP polls) = .ok sdps) ↔
      obfsKey = [] ∨ ∃ p ∈ posts, p.IsSealed ∧
        cipher.deriveSignalingKey p.obfsKey = cipher.deriveSignalingKey obfsKey ∧
        unmarshalSDPs p.payload = sdps := by
  by_cases hempty : obfsKey = []
  · refine iff_of_true ⟨[.stored (marshalPayload (marshalSDPs sdps))], ?_⟩ (.inl hempty)
    have hne : marshalSDPs sdps ≠ "" := plainCodec.seal_ne sdps
    rw [pollHTTP_stored hne, getSDPs, if_pos hempty, unmarshalSDPs_marshalSDPs]
  · rw [or_iff_right hempty]
    constructor
    · rintro ⟨polls, h⟩
      cases hpoll : pollHTTP polls with
      | error err => simp [hpoll, getSDPs] at h
      | ok raw =>
        simp only [hpoll, getSDPs, if_neg hempty] at h
        split at h
        · cases h
        rename_i text hopen
        obtain ⟨p, hp, hsealed, hkey, rfl⟩ := exists_post_of_decryptSDPPayload cipher hopen
        exact ⟨p, hp, hsealed, hkey, Except.ok.inj h⟩
    · rintro ⟨p, hp, hsealed, hkey, rfl⟩
      refine ⟨[.stored (marshalPayload (p.sdp cipher))], ?_⟩
      rw [pollHTTP_stored (sdp_ne cipher hsealed), getSDPs, if_neg hempty,
        decryptSDPPayload_sdp cipher hp hsealed hkey]

end

end NatProxy.Signaling.SealedPayload
