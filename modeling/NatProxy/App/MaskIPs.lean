import NatProxy.App.LogPolling
import NatProxy.Lib.Regexp

/-!
# Masking addresses in the log

Model of `maskIPAddresses` and of `add` (`golib/applog/applog.go`). With masking on, what matches
`ipv4Re` is replaced by its first three groups of digits and a star for the last.

Nothing in the masked message has the form of an address (`not_isInfix_mask`), and an address
between characters that are neither digits nor dots is masked on its own (`mask_eq_of_sameButLast`).
`masking` has both.
-/

namespace NatProxy.App.MaskIPs

open Lib NatProxy.Lib.Regexp App.LogPolling List

/-! ## The expression -/

/-- `\d{1,3}`. -/
def digits : Re := .seq (.set Char.isDigit) (.upTo 2 (.set Char.isDigit))

/-- `\.`. -/
def dot : Re := .set (· == '.')

def ipv4Re : Re :=
  .seq (.group (.seq digits (.seq dot (.seq digits (.seq dot digits))))) (.seq dot digits)

/-- `${1}.*`. -/
def template (group : List Char) : List Char := group ++ ['.', '*']

def maskIPAddresses (msg : List Char) : List Char := replaceAll ipv4Re template msg

def add (maskIPs : Bool) (log : Log) (time level : String) (msg : List Char) : Log :=
  let msg := if maskIPs = true then maskIPAddresses msg else msg
  log.push ⟨time, level, msg⟩

/-- One to three digits. -/
structure IsOctet (x : List Char) : Prop where
  ne : x ≠ []
  length_le : x.length ≤ 3
  digits : ∀ c ∈ x, c.isDigit = true

def IsHead (g : List Char) : Prop :=
  ∃ a b c, IsOctet a ∧ IsOctet b ∧ IsOctet c ∧ g = a ++ '.' :: (b ++ '.' :: c)

/-- What is masked: four of them, with dots between. -/
def IsIPv4 (x : List Char) : Prop := ∃ g o, IsHead g ∧ IsOctet o ∧ x = g ++ '.' :: o

def isPart (c : Char) : Bool := c.isDigit || c == '.'

/-! ## Where it matches -/

theorem isDigit_dot : Char.isDigit '.' = false := by decide

variable {c : Char}

theorem ne_dot_of_isDigit (h : c.isDigit = true) : c ≠ '.' := by
  rintro rfl
  rw [isDigit_dot] at h
  cases h

variable {x : List Char}

theorem IsOctet.cases (h : IsOctet x) : (∃ a, x = [a] ∧ a.isDigit = true) ∨
    (∃ a b, x = [a, b] ∧ a.isDigit = true ∧ b.isDigit = true) ∨
    ∃ a b c, x = [a, b, c] ∧ a.isDigit = true ∧ b.isDigit = true ∧ c.isDigit = true := by
  have hdigits := h.digits
  match x, h.ne, h.length_le with
  | [a], _, _ => exact .inl ⟨a, rfl, hdigits a (by simp)⟩
  | [a, b], _, _ => exact .inr (.inl ⟨a, b, rfl, hdigits a (by simp), hdigits b (by simp)⟩)
  | [a, b, c], _, _ =>
    simp_all
  | _ :: _ :: _ :: _ :: _, _, hle =>
    simp only [length_cons] at hle
    omega

variable {a : List Char}

theorem flatMap_ways_digits {β : Type} (ha : IsOctet a) (r : List Char)
    (next : Match → List β) (hnext : ∀ m, m.rest.head? ≠ some '.' → next m = []) :
    (digits.ways (a ++ '.' :: r)).flatMap next = next ⟨a, none, '.' :: r⟩ := by
  have hskip : ∀ (text rest : List Char) (c : Char), c.isDigit = true →
      next ⟨text, none, c :: rest⟩ = [] := by
    intro text rest c hc
    apply hnext
    simpa using ne_dot_of_isDigit hc
  rcases ha.cases with ⟨x, rfl, hx⟩ | ⟨x, y, rfl, hx, hy⟩ | ⟨x, y, z, rfl, hx, hy, hz⟩
  · simp [digits, Re.ways, waysUpTo, Match.before, hx, isDigit_dot]
  · simp [digits, Re.ways, waysUpTo, Match.before, hx, hy, isDigit_dot, hskip]
  · simp [digits, Re.ways, waysUpTo, Match.before, hx, hy, hz, hskip]

variable {s : List Char}

theorem ways_dot_of_ne (r : Re) (h : s.head? ≠ some '.') : (Re.seq dot r).ways s = [] := by
  cases s with
  | nil => rfl
  | cons c cs =>
    have hc : (c == '.') = false := by simpa using h
    simp [Re.ways, dot, hc]

theorem ways_octet_dot (ha : IsOctet a) (k : Re) (r : List Char) :
    (Re.seq digits (.seq dot k)).ways (a ++ '.' :: r) =
      (k.ways r).map fun m => ⟨a ++ '.' :: m.text, m.group, m.rest⟩ := by
  rw [Re.ways, flatMap_ways_digits ha]
  · simp [Re.ways, dot, Match.before, Function.comp_def]
  · intro m hm
    rw [ways_dot_of_ne k hm, map_nil]

variable {m : Match}

theorem mem_ways_digits (h : m ∈ digits.ways s) :
    m.group = none ∧ ∀ c ∈ m.text, c.isDigit = true := by
  obtain ⟨x, hx, y, hy, rfl⟩ := mem_ways_seq.mp h
  obtain ⟨c, cs, -, hc, rfl⟩ := mem_ways_set.mp hx
  obtain ⟨hgroup, htext⟩ := forall_mem_of_mem_upTo 2 hy
  exact ⟨by simp [Match.before, hgroup], by simpa [Match.before, hc] using htext⟩

variable {g : List Char}

theorem ways_head (hg : IsHead g) (r : List Char) : ipv4Re.ways (g ++ '.' :: r) =
      (digits.ways r).map fun m => ⟨g ++ '.' :: m.text, some g, m.rest⟩ := by
  obtain ⟨a, b, c, ha, hb, hc, rfl⟩ := hg
  have hhead : (Re.seq digits (.seq dot (.seq digits (.seq dot digits)))).ways
      (a ++ '.' :: (b ++ '.' :: (c ++ '.' :: r))) =
        (digits.ways (c ++ '.' :: r)).map fun m =>
          ⟨a ++ '.' :: (b ++ '.' :: m.text), m.group, m.rest⟩ := by
    rw [ways_octet_dot ha, ways_octet_dot hb, map_map]
    rfl
  have hassoc : (a ++ '.' :: (b ++ '.' :: c)) ++ '.' :: r =
      a ++ '.' :: (b ++ '.' :: (c ++ '.' :: r)) := by simp
  rw [hassoc, ipv4Re, Re.ways, Re.ways, hhead, map_map, flatMap_map,
    flatMap_ways_digits hc]
  · simp only [Function.comp_apply, Re.ways, dot, beq_self_eq_true, if_true, flatMap_singleton,
      map_map, map_inj_left]
    intro m hm
    simp [Match.before, (mem_ways_digits hm).1]
  · intro m hm
    rw [Function.comp_apply, ways_dot_of_ne digits hm, map_nil]

theorem matchAt_ne_none (hx : IsIPv4 x) (h : x <+: s) : ipv4Re.matchAt s ≠ none := by
  obtain ⟨g, o, hg, ho, rfl⟩ := hx
  obtain ⟨q, rfl⟩ := h
  rw [append_assoc, cons_append, Re.matchAt, ways_head hg]
  rcases ho.cases with ⟨a, rfl, ha⟩ | ⟨a, b, rfl, ha, -⟩ | ⟨a, b, c, rfl, ha, -⟩
  all_goals simp [digits, Re.ways, waysUpTo, ha]

theorem matchAt_address {o : List Char} (hg : IsHead g) (ho : IsOctet o) :
    ipv4Re.matchAt (g ++ '.' :: o) = some ⟨g ++ '.' :: o, some g, []⟩ := by
  rw [Re.matchAt, ways_head hg]
  rcases ho.cases with ⟨a, rfl, ha⟩ | ⟨a, b, rfl, ha, hb⟩ | ⟨a, b, c, rfl, ha, hb, hc⟩
  · simp [digits, Re.ways, waysUpTo, Match.before, ha]
  · simp [digits, Re.ways, waysUpTo, Match.before, ha, hb]
  · simp [digits, Re.ways, waysUpTo, Match.before, ha, hb, hc]

theorem mem_ways_dot (h : m ∈ dot.ways s) : m.group = none ∧ m.text = ['.'] := by
  obtain ⟨c, cs, -, hc, rfl⟩ := mem_ways_set.mp h
  exact ⟨rfl, by simpa using hc⟩

theorem group_of_mem_ways (h : m ∈ ipv4Re.ways s) :
    ∃ g o, m.group = some g ∧ m.text = g ++ '.' :: o ∧ g.count '.' = 2 := by
  obtain ⟨w, hw, y, hy, rfl⟩ := mem_ways_seq.mp h
  obtain ⟨x, hx, rfl⟩ := mem_ways_group.mp hw
  obtain ⟨a, ha, x₁, hx₁, rfl⟩ := mem_ways_seq.mp hx
  obtain ⟨d₁, hd₁, x₂, hx₂, rfl⟩ := mem_ways_seq.mp hx₁
  obtain ⟨b, hb, x₃, hx₃, rfl⟩ := mem_ways_seq.mp hx₂
  obtain ⟨d₂, hd₂, c, hc, rfl⟩ := mem_ways_seq.mp hx₃
  obtain ⟨d₃, hd₃, o, ho, rfl⟩ := mem_ways_seq.mp hy
  refine ⟨(a.before (d₁.before (b.before (d₂.before c)))).text, o.text, ?_, ?_, ?_⟩
  · simp [Match.before, (mem_ways_dot hd₃).1, (mem_ways_digits ho).1]
  · simp [Match.before, (mem_ways_dot hd₃).2]
  · have hnone : ∀ {s : List Char} {m : Match}, m ∈ digits.ways s → m.text.count '.' = 0 :=
      fun hm => count_eq_zero.mpr fun hdot =>
        ne_dot_of_isDigit ((mem_ways_digits hm).2 '.' hdot) rfl
    simp [Match.before, (mem_ways_dot hd₁).2, (mem_ways_dot hd₂).2, hnone ha, hnone hb, hnone hc]

theorem consumes_ipv4Re : ipv4Re.Consumes := by
  intro s m hm
  obtain ⟨g, o, -, htext, -⟩ := group_of_mem_ways hm
  simp [htext]

/-! ## No address is left -/

theorem isPrefix_of_isPrefix_append_cons {b : List Char} (hc : c ∉ x)
    (h : x <+: a ++ c :: b) : x <+: a := by
  rcases Nat.lt_or_ge a.length x.length with hlt | hge
  · have hcut : a ++ [c] <+: x :=
      prefix_of_prefix_length_le ⟨b, by simp⟩ h (by simpa using Nat.succ_le_of_lt hlt)
    exact absurd (hcut.subset (by simp)) hc
  · exact prefix_of_prefix_length_le h (prefix_append _ _) hge

theorem isInfix_append_cons {b : List Char} (hc : c ∉ x) (a : List Char)
    (h : x <:+: a ++ c :: b) : x <:+: a ∨ x <:+: b := by
  induction a with
  | nil =>
    rcases infix_cons_iff.mp h with hfront | hrest
    · exact .inl (isPrefix_of_isPrefix_append_cons (a := []) hc hfront).isInfix
    · exact .inr hrest
  | cons d a ih =>
    rcases infix_cons_iff.mp h with hfront | hrest
    · exact .inl (isPrefix_of_isPrefix_append_cons (a := d :: a) hc hfront).isInfix
    · exact (ih hrest).imp_left infix_cons

theorem IsOctet.count_dot (h : IsOctet x) : x.count '.' = 0 :=
  count_eq_zero.mpr fun hdot => ne_dot_of_isDigit (h.digits '.' hdot) rfl

theorem IsHead.count_dot (h : IsHead g) : g.count '.' = 2 := by
  obtain ⟨a, b, c, ha, hb, hc, rfl⟩ := h
  simp [ha.count_dot, hb.count_dot, hc.count_dot]

theorem IsIPv4.isPart (h : IsIPv4 x) : ∀ c ∈ x, isPart c = true := by
  have hdigits : ∀ {a : List Char}, IsOctet a → ∀ c ∈ a, MaskIPs.isPart c = true :=
    fun ha c hc => by simp [MaskIPs.isPart, ha.digits c hc]
  obtain ⟨g, o, ⟨a, b, c, ha, hb, hc, rfl⟩, ho, rfl⟩ := h
  simp only [mem_append, mem_cons]
  rintro d ((hd | rfl | hd | rfl | hd) | rfl | hd)
  · exact hdigits ha d hd
  · rfl
  · exact hdigits hb d hd
  · rfl
  · exact hdigits hc d hd
  · rfl
  · exact hdigits ho d hd

theorem IsIPv4.star_notMem (h : IsIPv4 x) : '*' ∉ x :=
  fun hmem => absurd (h.isPart '*' hmem) (by decide)

theorem mask_of_matchAt (h : ipv4Re.matchAt s = some m) : ∃ g, g.count '.' = 2 ∧ g ++ ['.'] <+: s ∧
      maskIPAddresses s = g ++ ['.'] ++ '*' :: maskIPAddresses m.rest := by
  have hmem := mem_ways_of_matchAt h
  obtain ⟨g, o, hgroup, htext, hcount⟩ := group_of_mem_ways hmem
  refine ⟨g, hcount, ⟨o ++ m.rest, ?_⟩, ?_⟩
  · rw [append_of_mem_ways ipv4Re hmem, htext]
    simp
  · rw [maskIPAddresses, replaceAll_of_matchAt consumes_ipv4Re h, hgroup]
    simp [template, maskIPAddresses]

/-- A text without a star that the masked message begins with is what the message begins with. -/
theorem isPrefix_of_isPrefix_mask (s : List Char) :
    ∀ {x : List Char}, '*' ∉ x → x <+: maskIPAddresses s → x <+: s := by
  induction s using replaceAll_induction consumes_ipv4Re with
  | nil => exact fun _ h => h
  | skip c cs hnone ih =>
    intro x hx h
    rw [maskIPAddresses, replaceAll_cons_of_none hnone] at h
    cases x with
    | nil => exact nil_prefix
    | cons d x =>
      obtain ⟨rfl, hrest⟩ := cons_prefix_cons.mp h
      exact cons_prefix_cons.mpr ⟨rfl, ih (fun hmem => hx (mem_cons_of_mem _ hmem)) hrest⟩
  | found s m hm ih =>
    intro x hx h
    obtain ⟨g, -, hfront, hmask⟩ := mask_of_matchAt hm
    rw [hmask] at h
    exact (isPrefix_of_isPrefix_append_cons hx h).trans hfront

theorem not_isInfix_group (hg : g.count '.' = 2) (hx : IsIPv4 x) : ¬ x <:+: g ++ ['.'] := by
  rintro ⟨p, q, h⟩
  obtain ⟨head, o, hhead, ho, rfl⟩ := hx
  rcases eq_nil_or_concat q with rfl | ⟨q, d, rfl⟩
  · obtain ⟨o, d, rfl⟩ := (eq_nil_or_concat o).resolve_left ho.ne
    have hlast : p ++ (head ++ '.' :: o) ++ [d] = g ++ ['.'] := by simpa using h
    have hd : d = '.' := singleton_inj.mp (append_inj' hlast rfl).2
    exact ne_dot_of_isDigit (ho.digits d (by simp)) hd
  · have hlast : p ++ (head ++ '.' :: o) ++ q ++ [d] = g ++ ['.'] := by simpa using h
    have hfront := (append_inj' hlast rfl).1
    have hcount := congrArg (count '.') hfront
    simp only [count_append, count_cons_self, hhead.count_dot, ho.count_dot, hg] at hcount
    omega

theorem not_isInfix_mask (hx : IsIPv4 x) (s : List Char) : ¬ x <:+: maskIPAddresses s := by
  induction s using replaceAll_induction consumes_ipv4Re with
  | nil =>
    intro h
    obtain ⟨g, o, -, -, rfl⟩ := hx
    simpa using eq_nil_of_infix_nil h
  | skip c cs hnone ih =>
    intro h
    have hmask : maskIPAddresses (c :: cs) = c :: maskIPAddresses cs :=
      replaceAll_cons_of_none hnone
    rw [hmask] at h
    rcases infix_cons_iff.mp h with hfront | hrest
    · rw [← hmask] at hfront
      exact matchAt_ne_none hx (isPrefix_of_isPrefix_mask _ hx.star_notMem hfront) hnone
    · exact ih hrest
  | found s m hm ih =>
    intro h
    obtain ⟨g, hcount, -, hmask⟩ := mask_of_matchAt hm
    rw [hmask] at h
    rcases isInfix_append_cons hx.star_notMem _ h with hgroup | hrest
    · exact not_isInfix_group hcount hx hgroup
    · exact ih hrest

/-! ## Last octets -/

theorem avoids_ipv4Re (h : isPart c = false) : ipv4Re.Avoids c := by
  obtain ⟨hdigit, hdot⟩ := Bool.or_eq_false_iff.mp h
  have hd : digits.Avoids c := ⟨hdigit, hdigit⟩
  exact ⟨⟨hd, hdot, hd, hdot, hd⟩, hdot, hd⟩

/-- The two texts are the same, or two addresses with the same first three octets. -/
inductive SamePiece : List Char → List Char → Prop
  | refl (u : List Char) : SamePiece u u
  | address {g x y : List Char} (hg : IsHead g) (hx : IsOctet x) (hy : IsOctet y) :
      SamePiece (g ++ '.' :: x) (g ++ '.' :: y)

/-- They differ only in the last octets of addresses between characters other than digits and dots.
-/
inductive SameButLast : List Char → List Char → Prop
  | last {u v : List Char} (h : SamePiece u v) : SameButLast u v
  | piece {u v s t : List Char} {c : Char} (h : SamePiece u v) (hc : isPart c = false)
      (rest : SameButLast s t) : SameButLast (u ++ c :: s) (v ++ c :: t)

theorem mask_eq_of_samePiece {u v : List Char} (h : SamePiece u v) :
    maskIPAddresses u = maskIPAddresses v := by
  have haddress : ∀ {g o : List Char}, IsHead g → IsOctet o →
      maskIPAddresses (g ++ '.' :: o) = template g := by
    intro g o hg ho
    rw [maskIPAddresses, replaceAll_of_matchAt consumes_ipv4Re (matchAt_address hg ho)]
    simp
  cases h with
  | refl => rfl
  | address hg hx hy => rw [haddress hg hx, haddress hg hy]

theorem mask_eq_of_sameButLast {t : List Char} (h : SameButLast s t) :
    maskIPAddresses s = maskIPAddresses t := by
  induction h with
  | last h => exact mask_eq_of_samePiece h
  | piece h hc rest ih =>
    have hpiece := mask_eq_of_samePiece h
    simp only [maskIPAddresses] at hpiece ih ⊢
    rw [replaceAll_append_cons consumes_ipv4Re (avoids_ipv4Re hc), hpiece, ih,
      replaceAll_append_cons consumes_ipv4Re (avoids_ipv4Re hc)]

/-- No address is stored, and messages that differ only in last octets are the same. -/
theorem masking (log : Log) (time level : String) :
    (∀ msg, ∃ e : Entry, add true log time level msg = log.push e ∧
      ∀ x, IsIPv4 x → ¬ x <:+: e.message) ∧
    ∀ msg₁ msg₂, SameButLast msg₁ msg₂ →
      add true log time level msg₁ = add true log time level msg₂ := by
  constructor
  · exact fun msg => ⟨_, rfl, fun x hx => not_isInfix_mask hx msg⟩
  · intro msg₁ msg₂ h
    simp only [add, if_true, mask_eq_of_sameButLast h]

example : maskIPAddresses "from 10.0.0.15:80".toList = "from 10.0.0.*:80".toList := by decide

end NatProxy.App.MaskIPs
