import NatProxy.Lib.Swaps
import Mathlib.Data.List.Forall2
import Mathlib.Tactic.SplitIfs

/-!
# The randomised ClientHello

Model of `randomizeDTLSClientHello` in `golib/webrtc/dtls_randomize.go`, for any outcomes of the
random source. Suites, curves, signature algorithms, profiles and formats are their codes.
`randomize_usable` is about one hello. For several hellos the array matters that the curves are a
slice of: `createConn` takes the package-wide `defaultCurves`, flight 1 hands this slice to the
hello, and the hook cuts the slice and shuffles it in place (`golib/replace/dtls`).
-/

namespace NatProxy.WebRTC.DTLSHello

open Lib.Swaps List

def requiredCipherSuiteID : UInt16 := 0xc02b

/-- `other` is an extension that the hook leaves alone. -/
inductive Extension where
  | curves (codes : List UInt16)
  | signatures (codes : List UInt16)
  | profiles (codes : List UInt16)
  | pointFormats (codes : List UInt8)
  | other (code : Nat)

structure ClientHello where
  suites : List UInt16
  extensions : List Extension

def truncateCipherSuites (suites : List UInt16) (rng : Rand) : List UInt16 × Rand :=
  if suites.length ≤ 3 then (suites, rng)
  else
    let keep := min (3 + rng.intn (suites.length - 2)) suites.length
    let later := suites.drop keep
    let suites :=
      if requiredCipherSuiteID ∉ suites.take keep ∧ requiredCipherSuiteID ∈ later then
        suites.swap (keep - 1) (keep + later.idxOf requiredCipherSuiteID)
      else suites
    (suites.take keep, rng.next)

/-- A seeded source cuts a list of more than `least` codes. -/
def truncate (least : Nat) (codes : List UInt16) (rng : Rand) : List UInt16 × Rand :=
  if rng.seeded ∧ least < codes.length then
    (codes.take (min (1 + rng.intn codes.length) codes.length), rng.next)
  else (codes, rng)

def randomizeCurves (rng : Rand) (codes : List UInt16) : List UInt16 × Rand :=
  let (codes, rng) := truncate 1 codes rng
  seededShuffle codes rng

def randomizeExtensionFieldsSeeded (rng : Rand) : Extension → Extension × Rand
  | .curves codes => (randomizeCurves rng codes).map .curves id
  | .signatures codes =>
    let (codes, rng) := truncate 2 codes rng
    match codes with
    | [] => (.signatures [], rng)
    | first :: rest => (seededShuffle rest rng).map (.signatures <| first :: ·) id
  | .profiles codes => (seededShuffle codes rng).map .profiles id
  | .pointFormats codes => (seededShuffle codes rng).map .pointFormats id
  | .other code => (.other code, rng)

def randomizeExtensions (rng : Rand) : List Extension → List Extension × Rand
  | [] => ([], rng)
  | ext :: exts =>
    let (ext, rng) := randomizeExtensionFieldsSeeded rng ext
    (randomizeExtensions rng exts).map (ext :: ·) id

def randomizeDTLSClientHello (hello : ClientHello) (rng : Rand) : ClientHello :=
  let (suites, rng) := if rng.seeded then truncateCipherSuites hello.suites rng
    else (hello.suites, rng)
  let (suites, rng) := seededShuffle suites rng
  let (extensions, rng) := randomizeExtensions rng hello.extensions
  ⟨suites, (seededShuffle extensions rng).1⟩

/-! ## One hello -/

/-- What may become of an extension. -/
def Usable : Extension → Extension → Prop
  | .curves codes, .curves codes' => codes'.Subperm codes ∧ ∀ c ∈ codes.head?, c ∈ codes'
  | .signatures codes, .signatures codes' => codes'.Subperm codes ∧ codes'.head? = codes.head?
  | .profiles codes, .profiles codes' => codes'.Perm codes
  | .pointFormats codes, .pointFormats codes' => codes'.Perm codes
  | .other code, .other code' => code' = code
  | _, _ => False

/-- The front of a rearranged list, with the suite that is required. -/
def KeepsSuites (suites kept : List UInt16) : Prop :=
  ∃ (l : List UInt16) (keep : Nat), kept = l.take keep ∧ l.Perm suites ∧
    min 3 suites.length ≤ keep ∧ (requiredCipherSuiteID ∈ suites → requiredCipherSuiteID ∈ kept)

theorem keepsSuites_self (suites : List UInt16) : KeepsSuites suites suites :=
  ⟨suites, suites.length, take_length.symm, .refl _, Nat.min_le_right _ _, id⟩

theorem keepsSuites_truncateCipherSuites (suites : List UInt16) (rng : Rand) :
    KeepsSuites suites (truncateCipherSuites suites rng).1 := by
  rw [truncateCipherSuites]
  split_ifs with hshort
  · exact keepsSuites_self suites
  · have hkeep : 3 ≤ min (3 + rng.intn (suites.length - 2)) suites.length := by omega
    have hle : min (3 + rng.intn (suites.length - 2)) suites.length ≤ suites.length :=
      Nat.min_le_right _ _
    simp only
    generalize min (3 + rng.intn (suites.length - 2)) suites.length = keep at hkeep hle ⊢
    refine ⟨_, keep, rfl, ?_, by omega, fun hmem => ?_⟩
    · split_ifs
      · exact swap_perm _ _ _
      · exact .refl _
    · rw [← take_append_drop keep suites, mem_append] at hmem
      split_ifs with hswap
      · -- the required suite is exchanged with the last one that is kept
        have hidx := idxOf_lt_length_of_mem hswap.2
        have hget : suites[keep + (suites.drop keep).idxOf requiredCipherSuiteID]? =
            some requiredCipherSuiteID := by
          rw [← getElem?_drop, getElem?_eq_getElem hidx, getElem_idxOf hidx]
        rw [length_drop] at hidx
        apply mem_of_getElem? (i := keep - 1)
        rw [getElem?_take_of_lt (by omega), getElem?_swap_of_lt (by omega) (by omega), hget]
      · by_contra hno
        exact hswap ⟨hno, hmem.resolve_left hno⟩

theorem truncate_spec (least : Nat) (codes : List UInt16) (rng : Rand) :
    (truncate least codes rng).1 <+: codes ∧ (truncate least codes rng).1.head? = codes.head? := by
  rw [truncate]
  split_ifs with hcut
  · refine ⟨List.take_prefix _ _, ?_⟩
    rw [head?_take, if_neg (by omega)]
  · exact ⟨prefix_rfl, rfl⟩

theorem seededShuffle_perm {α : Type} (l : List α) (rng : Rand) : (seededShuffle l rng).1.Perm l :=
  shuffle_perm rng _ l

theorem usable_randomizeExtensionFieldsSeeded (rng : Rand) (ext : Extension) :
    Usable ext (randomizeExtensionFieldsSeeded rng ext).1 := by
  cases ext with
  | curves codes =>
    obtain ⟨hfront, hhead⟩ := truncate_spec 1 codes rng
    have hperm := seededShuffle_perm (truncate 1 codes rng).1 (truncate 1 codes rng).2
    refine ⟨hperm.subperm.trans hfront.sublist.subperm, fun c hc => hperm.mem_iff.mpr ?_⟩
    rw [← hhead] at hc
    exact mem_of_mem_head? hc
  | signatures codes =>
    obtain ⟨hfront, hhead⟩ := truncate_spec 2 codes rng
    rw [randomizeExtensionFieldsSeeded]
    generalize truncate 2 codes rng = cut at hfront hhead ⊢
    obtain ⟨kept, rng⟩ := cut
    cases kept with
    | nil => exact ⟨nil_subperm, hhead⟩
    | cons first rest =>
      have hperm := seededShuffle_perm rest rng
      exact ⟨(hperm.cons first).subperm.trans hfront.sublist.subperm, hhead⟩
  | profiles codes | pointFormats codes => exact seededShuffle_perm codes rng
  | other code => rfl

theorem usable_randomizeExtensions (rng : Rand) (exts : List Extension) :
    List.Forall₂ Usable exts (randomizeExtensions rng exts).1 := by
  induction exts generalizing rng with
  | nil => exact .nil
  | cons ext exts ih => exact .cons (usable_randomizeExtensionFieldsSeeded rng ext) (ih _)

/-- **A randomised hello is usable**, whatever the source returns and wherever it fails. -/
theorem randomize_usable (hello : ClientHello) (rng : Rand) :
    let new := randomizeDTLSClientHello hello rng
    new.suites.Subperm hello.suites ∧ min 3 hello.suites.length ≤ new.suites.length ∧
      (requiredCipherSuiteID ∈ hello.suites → requiredCipherSuiteID ∈ new.suites) ∧
      ∃ exts, List.Forall₂ Usable hello.extensions exts ∧ new.extensions.Perm exts := by
  intro new
  let cut := if rng.seeded then truncateCipherSuites hello.suites rng else (hello.suites, rng)
  have hcut : KeepsSuites hello.suites cut.1 := by
    by_cases hseeded : rng.seeded = true
    · rw [show cut = _ from if_pos hseeded]
      exact keepsSuites_truncateCipherSuites hello.suites rng
    · rw [show cut = _ from if_neg hseeded]
      exact keepsSuites_self hello.suites
  obtain ⟨l, keep, heq, hperm, hkeep, hrequired⟩ := hcut
  have hsuites : new.suites.Perm cut.1 := seededShuffle_perm cut.1 cut.2
  refine ⟨?_, ?_, fun h => hsuites.mem_iff.mpr (hrequired h), ?_⟩
  · apply hsuites.subperm.trans
    rw [heq]
    exact (take_sublist _ _).subperm.trans hperm.subperm
  · rw [hsuites.length_eq, heq, length_take, hperm.length_eq]
    omega
  · exact ⟨_, usable_randomizeExtensions _ _, seededShuffle_perm _ _⟩

/-! ## Several hellos -/

/-- `array` is the array of `cfg.ellipticCurves`. The hello of each handshake has the front of it of
the length `slices`; `sent` are the curves that were sent, the last ones first. -/
structure Process where
  array : List UInt16
  slices : Nat → Nat
  sent : List (List UInt16)

def Process.start (curves : List UInt16) : Process := ⟨curves, fun _ => curves.length, []⟩

/-- The hook runs on a hello of the handshake `i`, or the hello is sent. -/
inductive Action where
  | hook (i : Nat) (outcomes : List (Option Nat))
  | send (i : Nat)

def step (seeded : Bool) (s : Process) : Action → Process
  | .hook i outcomes =>
    -- flight 1 makes a new extension with the whole slice
    let codes := (randomizeCurves ⟨seeded, outcomes⟩ s.array).1
    { s with
      array := codes ++ s.array.drop codes.length
      slices := Function.update s.slices i codes.length }
  | .send i => { s with sent := s.array.take (s.slices i) :: s.sent }

/-- The configured list is as before, and every hello has offered its first curve. -/
def Unaffected (curves : List UInt16) (s : Process) : Prop :=
  s.array = curves ∧ ∀ codes ∈ s.sent, ∀ c ∈ curves.head?, c ∈ codes

theorem exists_randomizeCurves_eq_swap (seeded : Bool) {curves : List UInt16} {j : Nat}
    (hj : j + 1 < curves.length) :
    ∃ outcomes, (randomizeCurves ⟨seeded, outcomes⟩ curves).1 = curves.swap (j + 1) 0 := by
  obtain ⟨outcomes, h⟩ := exists_shuffle_eq_swap (α := UInt16) seeded
    (show j + 1 ≤ curves.length - 1 by omega)
  cases seeded with
  | false => exact ⟨outcomes, h curves⟩
  | true =>
    -- the first outcome keeps all curves
    refine ⟨some (curves.length - 1) :: outcomes, ?_⟩
    have hmod : (curves.length - 1) % curves.length = curves.length - 1 :=
      Nat.mod_eq_of_lt (by omega)
    have hcut : truncate 1 curves ⟨true, some (curves.length - 1) :: outcomes⟩ =
        (curves, ⟨true, outcomes⟩) := by
      rw [truncate, if_pos ⟨rfl, by omega⟩]
      simp [Rand.intn, Lib.Swaps.Rand.next, hmod,
        show 1 + (curves.length - 1) = curves.length by omega]
    rw [randomizeCurves, hcut]
    exact h curves

structure Inv (c : UInt16) (n : Nat) (s : Process) : Prop where
  array : s.array = replicate n c
  slices : ∀ i, n ≠ 0 → 0 < s.slices i
  sent : ∀ codes ∈ s.sent, n ≠ 0 → c ∈ codes

theorem inv_step {c : UInt16} {n : Nat} {s : Process} (h : Inv c n s) (seeded : Bool)
    (a : Action) : Inv c n (step seeded s a) := by
  cases a with
  | hook i outcomes =>
    obtain ⟨hsub, hhead⟩ :=
      usable_randomizeExtensionFieldsSeeded ⟨seeded, outcomes⟩ (.curves s.array)
    change List.Subperm (randomizeCurves ⟨seeded, outcomes⟩ s.array).1 _ at hsub
    change ∀ c ∈ s.array.head?, c ∈ (randomizeCurves ⟨seeded, outcomes⟩ s.array).1 at hhead
    rw [step]
    generalize (randomizeCurves ⟨seeded, outcomes⟩ s.array).1 = codes at hsub hhead ⊢
    have hcodes : codes = replicate codes.length c := by
      refine eq_replicate_of_mem fun b hb => eq_of_mem_replicate (n := n) ?_
      exact h.array ▸ hsub.subset hb
    have hlen : codes.length ≤ n := by
      have hle := hsub.length_le
      rwa [h.array, length_replicate] at hle
    refine ⟨?_, fun k hn => ?_, h.sent⟩
    · show codes ++ s.array.drop codes.length = _
      rw [h.array, drop_replicate, hcodes, length_replicate, replicate_append_replicate,
        Nat.add_sub_of_le hlen]
    · by_cases hk : k = i
      · subst hk
        have hc : c ∈ codes := hhead c (by rw [h.array, head?_replicate, if_neg hn]; rfl)
        simp only [Function.update_self]
        exact length_pos_of_mem hc
      · simp only [Function.update_of_ne hk]
        exact h.slices k hn
  | send i =>
    refine ⟨h.array, h.slices, forall_mem_cons.mpr ⟨fun hn => ?_, h.sent⟩⟩
    rw [h.array, take_replicate]
    have hpos := h.slices i hn
    exact mem_replicate.mpr ⟨by omega, rfl⟩

theorem inv_foldl {c : UInt16} {n : Nat} {s : Process} (h : Inv c n s) (seeded : Bool)
    (acts : List Action) : Inv c n (acts.foldl (step seeded) s) := by
  induction acts generalizing s with
  | nil => exact h
  | cons a acts ih => exact ih (inv_step h seeded a)

/-- **When later handshakes are not affected**: the configured curves are all the same one. -/
theorem unaffected_iff (seeded : Bool) (curves : List UInt16) :
    (∀ acts : List Action, Unaffected curves (acts.foldl (step seeded) (.start curves))) ↔
      ∃ c n, curves = replicate n c := by
  constructor
  · intro h
    cases curves with
    | nil => exact ⟨0, 0, rfl⟩
    | cons c curves =>
      refine ⟨c, curves.length + 1, eq_replicate_of_mem fun b hb => ?_⟩
      obtain ⟨j, hj, rfl⟩ := getElem_of_mem hb
      cases j with
      | zero => rfl
      | succ j =>
        obtain ⟨outcomes, heq⟩ := exists_randomizeCurves_eq_swap seeded hj
        have hsame := (h [.hook 0 outcomes]).1
        change (randomizeCurves ⟨seeded, outcomes⟩ (c :: curves)).1 ++ (c :: curves).drop
          (randomizeCurves ⟨seeded, outcomes⟩ (c :: curves)).1.length = _ at hsame
        rw [heq, length_swap, drop_length, append_nil] at hsame
        have hget := getElem?_swap_of_lt hj (Nat.zero_lt_succ curves.length)
        rw [hsame, getElem?_eq_getElem hj] at hget
        exact Option.some.inj hget
  · rintro ⟨c, n, rfl⟩ acts
    have hstart : Inv c n (.start (replicate n c)) :=
      ⟨rfl, fun _ hn => by simpa [Process.start] using Nat.pos_of_ne_zero hn, nofun⟩
    have hinv := inv_foldl hstart seeded acts
    refine ⟨hinv.array, fun codes hcodes b hb => ?_⟩
    rw [head?_replicate] at hb
    split_ifs at hb with hn
    · cases hb
    cases hb
    exact hinv.sent codes hcodes hn

def defaultCurves : List UInt16 := [0x001d, 0x0017, 0x0018]

/-- Two handshakes with different seeds: the first exchanges the first two curves, and the hello of
the second has only P256. -/
theorem defaultCurves_affected :
    let s := [Action.hook 0 [some 2, some 2, some 0], .send 0, .hook 1 [some 0], .send 1].foldl
      (step true) (.start defaultCurves)
    s.array = [0x0017, 0x001d, 0x0018] ∧ s.sent = [[0x0017], [0x0017, 0x001d, 0x0018]] := by
  decide +kernel

end NatProxy.WebRTC.DTLSHello
