import Mathlib.Algebra.Order.BigOperators.Group.List
import Mathlib.Algebra.Order.Group.Nat
import Mathlib.Algebra.Ring.Nat
import NatProxy.Lib.LeastScan

/-!
# Which connection a group dials

Model of `ClientGroup.DialStream` (`golib/webrtc/group.go`) and of `GetStreamCount` and `openStream`
of its clients (`golib/webrtc/client.go`), in one state of the group, over any sessions that behave
like those of smux (`Smux`).

The group picks the client with the fewest streams before it looks for sessions, and a client that
is still connecting, or whose sessions are closed, counts none. `dialsUsable_iff`: the dial uses a
usable connection exactly if every client without an open session comes after an idle one with an
open session.
-/

namespace NatProxy.WebRTC.GroupDial

open Lib List

def maxInt : Nat := 9223372036854775807

/-- What dialing uses of a smux session. `openStream` is the error of `OpenStream`, if it fails. -/
structure Smux (Session : Type) where
  isClosed : Session → Bool
  numStreams : Session → Nat
  openStream : Session → Option String
  counts : ∀ sess, isClosed sess = true → numStreams sess = 0
  refuses : ∀ sess, isClosed sess = true → openStream sess ≠ none
  -- it has stream IDs left, and the frame is written in time
  opens : ∀ sess, isClosed sess = false → openStream sess = none

variable {Session : Type} {smux : Smux Session}

/-- A stream is told by its session. -/
def Smux.stream (smux : Smux Session) (sess : Session) : Except String Session :=
  match smux.openStream sess with
  | some err => .error err
  | none => .ok sess

theorem stream_of_open {sess : Session} (h : smux.isClosed sess = false) :
    smux.stream sess = .ok sess := by
  rw [Smux.stream, smux.opens sess h]

/-- The parts of a `Client` that dialing uses. There are fewer streams than the largest `int`. -/
structure Client (smux : Smux Session) where
  sessions : List Session
  nextSession : UInt32 := 0
  fits : (sessions.map smux.numStreams).sum < maxInt

def Client.getStreamCount (c : Client smux) : Nat := (c.sessions.map smux.numStreams).sum

def Client.openStream (c : Client smux) : Except String Session :=
  match c.sessions with
  | [] => .error "no smux sessions available"
  | [sess] => smux.stream sess
  | first :: sessions =>
    match LeastScan.scan (fun sess => !smux.isClosed sess) smux.numStreams maxInt
        (first :: sessions) with
    | some best => smux.stream best
    | none =>
      -- all sessions closed: round-robin on the full list
      let idx := (c.nextSession + 1).toNat % (first :: sessions).length
      smux.stream ((first :: sessions).getD idx first)

/-- The client and the session on which the stream is opened. -/
def dialStream (clients : List (Client smux)) : Except String (Client smux × Session) :=
  match clients with
  | [] => .error "no client PeerConnections available"
  | [c] => c.openStream.map fun sess => (c, sess)
  | first :: clients =>
    let best := (LeastScan.scan (fun _ => true) Client.getStreamCount maxInt
      (first :: clients)).getD first
    best.openStream.map fun sess => (best, sess)

/-! ## Usable clients -/

/-- It has a session that is open. -/
def Client.Usable (c : Client smux) : Prop := ∃ sess ∈ c.sessions, smux.isClosed sess = false

instance (c : Client smux) : Decidable c.Usable := inferInstanceAs (Decidable (∃ _ ∈ _, _))

theorem numStreams_lt (c : Client smux) {sess : Session} (h : sess ∈ c.sessions) :
    smux.numStreams sess < maxInt :=
  Nat.lt_of_le_of_lt (le_sum_of_mem (mem_map_of_mem h)) c.fits

theorem openStream_of_usable {c : Client smux} (h : c.Usable) :
    ∃ sess ∈ c.sessions, smux.isClosed sess = false ∧ c.openStream = .ok sess := by
  obtain ⟨sess, hmem, hopen⟩ := h
  rw [Client.openStream]
  match hsessions : c.sessions with
  | [] =>
    rw [hsessions] at hmem
    cases hmem
  | [only] =>
    rw [hsessions, mem_singleton] at hmem
    subst hmem
    refine ⟨sess, mem_singleton_self _, hopen, ?_⟩
    exact stream_of_open hopen
  | first :: second :: rest =>
    have hcount := numStreams_lt c hmem
    rw [hsessions] at hmem
    obtain ⟨best, before, after, hscan, hleast⟩ :=
      LeastScan.exists_least (fun sess => !smux.isClosed sess) smux.numStreams hmem
        (by simp [hopen]) hcount
    have hbest : smux.isClosed best = false := by simpa using hleast.chosen
    refine ⟨best, hleast.mem, hbest, ?_⟩
    dsimp only
    rw [hscan]
    exact stream_of_open hbest

section Unusable

variable {c : Client smux} (h : ¬ c.Usable)

include h

theorem closed_of_not_usable : ∀ sess ∈ c.sessions, smux.isClosed sess = true := by
  intro sess hmem
  rw [← Bool.not_eq_false]
  exact fun hopen => h ⟨sess, hmem, hopen⟩

theorem getStreamCount_of_not_usable : c.getStreamCount = 0 := by
  rw [Client.getStreamCount, List.sum_eq_zero_iff_forall_eq_nat]
  intro n hn
  obtain ⟨sess, hmem, rfl⟩ := mem_map.mp hn
  exact smux.counts sess (closed_of_not_usable h sess hmem)

theorem openStream_of_not_usable (sess : Session) : c.openStream ≠ .ok sess := by
  have hclosed := closed_of_not_usable h
  have hfails : ∀ s ∈ c.sessions, smux.stream s ≠ .ok sess := by
    intro s hmem
    obtain ⟨err, herr⟩ := Option.ne_none_iff_exists'.mp (smux.refuses s (hclosed s hmem))
    rw [Smux.stream, herr]
    exact nofun
  rw [Client.openStream]
  match hsessions : c.sessions with
  | [] => exact nofun
  | [only] =>
    rw [hsessions] at hfails
    exact hfails only (mem_singleton_self _)
  | first :: second :: rest =>
    rw [hsessions] at hfails hclosed
    have hskip : ∀ s ∈ first :: second :: rest, (!smux.isClosed s) = false := by
      intro s hs
      rw [hclosed s hs]
      rfl
    have hnone :=
      LeastScan.scan_eq_none (fun sess => !smux.isClosed sess) smux.numStreams hskip maxInt
    dsimp only
    rw [hnone]
    dsimp only
    -- the session of the round-robin is one of the list
    have hlt : (c.nextSession + 1).toNat % (first :: second :: rest).length <
        (first :: second :: rest).length := Nat.mod_lt _ (Nat.succ_pos _)
    rw [getD_eq_getElem?_getD, getElem?_eq_getElem hlt]
    exact hfails _ (getElem_mem hlt)

end Unusable

/-! ## Dialing -/

/-- If some client has an open session, the stream is opened on one of those with the fewest
streams. -/
def DialsUsable (clients : List (Client smux)) : Prop :=
  (∃ c ∈ clients, c.Usable) →
    ∃ c sess, dialStream clients = .ok (c, sess) ∧ c ∈ clients ∧ sess ∈ c.sessions ∧
      smux.isClosed sess = false ∧ ∀ other ∈ clients, other.Usable →
        c.getStreamCount ≤ other.getStreamCount

theorem exists_picked {clients : List (Client smux)} (hne : clients ≠ []) :
    ∃ c before after, dialStream clients = c.openStream.map (fun sess => (c, sess)) ∧
      LeastScan.Least (fun _ => true) Client.getStreamCount maxInt clients c before after := by
  match clients with
  | [] => exact absurd rfl hne
  | [c] =>
    exact ⟨c, [], [], rfl, rfl, rfl, c.fits, fun _ h => (nomatch h), fun _ h => (nomatch h)⟩
  | first :: second :: rest =>
    obtain ⟨c, before, after, hscan, hleast⟩ :=
      LeastScan.exists_least (fun _ => true) Client.getStreamCount
        (mem_cons_self (a := first) (l := second :: rest)) rfl first.fits
    refine ⟨c, before, after, ?_, hleast⟩
    rw [dialStream, hscan]
    · rfl
    · exact nofun

/-- **A dial uses a usable connection** exactly if each client without an open session comes after
one that has a session and no streams, or no client has one. -/
theorem dialsUsable_iff (clients : List (Client smux)) :
    DialsUsable clients ↔ ((∃ c ∈ clients, c.Usable) →
      ∀ before c after, clients = before ++ c :: after → ¬ c.Usable →
        ∃ idle ∈ before, idle.Usable ∧ idle.getStreamCount = 0) := by
  constructor
  · intro hdials husable before c after hsplit hbad
    obtain ⟨c', sess, hdial, hmem, hsess, hopen, -⟩ := hdials husable
    obtain ⟨best, before', after', hpicked, hleast⟩ := exists_picked (ne_nil_of_mem hmem)
    -- the client that is picked has the fewest streams of all, so none
    have hbest : best.Usable := by
      by_contra hbad'
      cases hstream : best.openStream with
      | ok sess' => exact openStream_of_not_usable hbad' sess' hstream
      | error err =>
        rw [hpicked, hstream] at hdial
        cases hdial
    have hzero : best.getStreamCount = 0 := by
      have hle := hleast.le (y := c) (by rw [hsplit]; simp) rfl
      rw [getStreamCount_of_not_usable hbad] at hle
      exact Nat.le_zero.mp hle
    -- it cannot come after `c`, which has none either
    have hle : c.getStreamCount ≤ best.getStreamCount := by
      rw [getStreamCount_of_not_usable hbad]
      exact Nat.zero_le _
    rcases hleast.mem_or_eq hsplit rfl hle with hmem' | rfl
    · exact ⟨best, hmem', hbest, hzero⟩
    · exact absurd hbest hbad
  · intro hidle husable
    have hne : clients ≠ [] := by
      rintro rfl
      obtain ⟨c, hc, -⟩ := husable
      cases hc
    obtain ⟨c, before, after, hdial, hleast⟩ := exists_picked hne
    have hc : c.Usable := by
      by_contra hbad
      -- an idle client before `c` would have been picked
      obtain ⟨idle, hmem, -, hzero⟩ := hidle husable before c after hleast.split hbad
      have hless := hleast.earlier idle hmem rfl
      rw [hzero] at hless
      exact absurd hless (Nat.not_lt_zero _)
    obtain ⟨sess, hmem, hopen, hstream⟩ := openStream_of_usable hc
    refine ⟨c, sess, ?_, hleast.mem, hmem, hopen, fun other hother _ => hleast.le hother rfl⟩
    rw [hdial, hstream]
    rfl

/-- Sessions with a number of streams, or closed ones. -/
def sampleSmux : Smux (Option Nat) where
  isClosed sess := sess.isNone
  numStreams sess := sess.getD 0
  openStream sess := if sess.isNone then some "io: read/write on closed pipe" else none
  counts sess h := by rw [Option.isNone_iff_eq_none.mp h]; rfl
  refuses sess h := by rw [if_pos h]; exact Option.some_ne_none _
  opens sess h := if_neg (by rw [h]; exact Bool.false_ne_true)

def connecting : Client sampleSmux where
  sessions := []
  fits := by decide

def connected : Client sampleSmux where
  sessions := [some 1]
  fits := by decide

/-- With both of them the group fails, although a session is open. -/
theorem connecting_dialed : connected.Usable ∧
    (∀ c sess, dialStream [connecting, connected] ≠ .ok (c, sess)) ∧
    ¬ DialsUsable [connecting, connected] := by
  have hdial : dialStream [connecting, connected] = .error "no smux sessions available" := rfl
  have hfails : ∀ c sess, dialStream [connecting, connected] ≠ .ok (c, sess) := by
    intro c sess
    rw [hdial]
    exact nofun
  refine ⟨by decide, hfails, fun hdials => ?_⟩
  obtain ⟨c, sess, hok, -⟩ := hdials ⟨connected, by simp, by decide⟩
  exact hfails c sess hok

end NatProxy.WebRTC.GroupDial
