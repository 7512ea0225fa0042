import NatProxy.Lib.BigEndian

/-!
# Ideal authenticated encryption

An AEAD cipher seals a plaintext under a key and a nonce. It is ideal if opening succeeds exactly on
what has been sealed before: `AEAD.tryOpen` looks a ciphertext up in the log of all seals, so nobody
without the key makes a ciphertext that opens (`tryOpen_eq_some_iff`).
-/

namespace NatProxy.Lib

/-- Sealing adds `tag` bytes, and different plaintexts have different ciphertexts. -/
structure AEAD (Key : Type) (tag : Nat) where
  encrypt : Key → Bytes → Bytes → Bytes
  length_encrypt : ∀ key nonce plaintext,
    (encrypt key nonce plaintext).length = plaintext.length + tag
  encrypt_inj : ∀ {key nonce p q}, encrypt key nonce p = encrypt key nonce q → p = q

structure Sealed (Key : Type) where
  key : Key
  nonce : Bytes
  plaintext : Bytes
  deriving DecidableEq

namespace AEAD

variable {Key : Type} [DecidableEq Key] {tag : Nat} (aead : AEAD Key tag)

def tryOpen (log : List (Sealed Key)) (key : Key) (nonce ciphertext : Bytes) : Option Bytes :=
  (log.find? fun m => decide (m.key = key ∧ m.nonce = nonce ∧
    aead.encrypt key nonce m.plaintext = ciphertext)).map Sealed.plaintext

/-- **Opening succeeds exactly on what was sealed**, and gives the plaintext. -/
theorem tryOpen_eq_some_iff {log : List (Sealed Key)} {key : Key}
    {nonce ciphertext plaintext : Bytes} :
    aead.tryOpen log key nonce ciphertext = some plaintext ↔
      ⟨key, nonce, plaintext⟩ ∈ log ∧ aead.encrypt key nonce plaintext = ciphertext := by
  rw [tryOpen, Option.map_eq_some_iff]
  constructor
  · rintro ⟨m, hfind, rfl⟩
    have hm := List.find?_some hfind
    rw [decide_eq_true_iff] at hm
    have hmem := List.mem_of_find?_eq_some hfind
    obtain ⟨rfl, rfl, hcipher⟩ := hm
    exact ⟨hmem, hcipher⟩
  · rintro ⟨hmem, hcipher⟩
    have hsome : (log.find? fun m => decide (m.key = key ∧ m.nonce = nonce ∧
        aead.encrypt key nonce m.plaintext = ciphertext)).isSome = true :=
      List.find?_isSome.2 ⟨⟨key, nonce, plaintext⟩, hmem, decide_eq_true ⟨rfl, rfl, hcipher⟩⟩
    obtain ⟨m, hfind⟩ := Option.isSome_iff_exists.1 hsome
    have hm := List.find?_some hfind
    rw [decide_eq_true_iff] at hm
    obtain ⟨-, -, hsame⟩ := hm
    -- the entry found may be another one, but it has the same ciphertext
    exact ⟨m, hfind, aead.encrypt_inj (hsame.trans hcipher.symm)⟩

end AEAD

end NatProxy.Lib
