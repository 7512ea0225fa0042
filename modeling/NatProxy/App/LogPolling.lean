import NatProxy.Lib.Ring
import Mathlib.Data.List.Basic

/-!
# Polling the log

Model of the ring buffer of `golib/applog/applog.go` (`add`, `GetLogs`, `ClearLogs`) and of the
screens that poll it (`_fetchLogs` and `_clearLogs` of `lib/screens/client_screen.dart`; the server
screen has the same two). The buffer holds the newest 500 entries; `count` is the number of entries
since the last `ClearLogs` and is given to a poller as its cursor. Each screen has its own cursor.

`Journal` says what polling is for: a poller gets what was added since its previous reply, or since
a later clear, as far as it is among the newest 500 entries, and sees every such entry once and in
order (`Journal.shown_spec`). `ClearLogs` rewinds `count` under the cursors that other pollers still
have, and a call of `GetLogs` with a cursor beyond `count` panics in `make`. `polling_iff`: the
replies of a run are those of the journal exactly if no poll comes with a cursor that a clear has
left too large (`pollAfterForeignClear`).

`int` is unbounded here: `count` would overflow after 2^63 entries. The JSON text of a reply is its
cursor and its entries.
-/

namespace NatProxy.App.LogPolling

open Lib Function List

structure Entry where
  time : String
  level : String
  message : List Char
deriving DecidableEq, Repr, Inhabited

structure Response where
  cursor : Int
  entries : List Entry
deriving DecidableEq, Repr

def maxEntries : Nat := 500

instance : NeZero maxEntries := ⟨by decide⟩

inductive Panic where
  | makeslice
deriving DecidableEq, Repr

structure Log where
  buf : Fin maxEntries → Entry
  head : Nat
  count : Nat

def Log.new : Log := ⟨fun _ => ⟨"", "", []⟩, 0, 0⟩

/-- The part of `add` under the lock. -/
def Log.push (log : Log) (e : Entry) : Log :=
  ⟨Ring.write log.buf log.head e, log.head + 1, log.count + 1⟩

def Log.clearLogs (log : Log) : Log := { log with head := 0, count := 0 }

def Log.getLogs (log : Log) (cursor : Int) : Except Panic Response :=
  let oldest := max ((log.count : Int) - maxEntries) 0
  let cursor := max cursor oldest
  let n := (log.count : Int) - cursor
  if n < 0 then .error .makeslice
  else .ok ⟨log.count, Ring.window log.buf cursor.toNat log.count⟩

/-! ## Pollers -/

section

variable {ι : Type} [DecidableEq ι]

inductive Op (ι : Type) where
  | add (e : Entry)
  | poll (p : ι)
  | clear (p : ι)

structure World (ι : Type) where
  log : Log
  cursor : ι → Int

def World.init : World ι := ⟨.new, fun _ => 0⟩

/-- The cursor is only replaced if there are entries. -/
def World.receive (w : World ι) (p : ι) : Except Panic Response → Except Panic (World ι × Response)
  | .error panic => .error panic
  | .ok reply =>
    if reply.entries = [] then .ok (w, reply)
    else .ok ({ w with cursor := update w.cursor p reply.cursor }, reply)

def World.fetchLogs (w : World ι) (p : ι) : Except Panic (World ι × Response) :=
  w.receive p (w.log.getLogs (w.cursor p))

def World.run : World ι → List (Op ι) → Except Panic (List Response)
  | _, [] => .ok []
  | w, .add e :: ops => World.run { w with log := w.log.push e } ops
  | w, .clear p :: ops =>
    World.run ⟨w.log.clearLogs, update w.cursor p 0⟩ ops
  | w, .poll p :: ops =>
    (w.fetchLogs p).bind fun result => (World.run result.1 ops).map (result.2 :: ·)

def logAfter : Log → List (Op ι) → Log
  | log, [] => log
  | log, .add e :: ops => logAfter (log.push e) ops
  | log, .clear _ :: ops => logAfter log.clearLogs ops
  | log, .poll _ :: ops => logAfter log ops

/-! ## What polling is for -/

/-- All entries since the last clear, and for each poller how many there were at its last reply,
what this told it, and what it was shown since. -/
structure Journal (ι : Type) where
  history : List Entry
  synced : ι → Nat
  told : ι → Nat
  shown : ι → List Entry

def Journal.init : Journal ι := ⟨[], fun _ => 0, fun _ => 0, fun _ => []⟩

/-- Where the entries begin that the poller has not seen and that are among the newest. -/
def Journal.start (j : Journal ι) (p : ι) : Nat := max (j.synced p) (j.history.length - maxEntries)

def Journal.unseen (j : Journal ι) (p : ι) : List Entry := j.history.drop (j.start p)

def Journal.step (j : Journal ι) : Op ι → Journal ι
  | .add e => { j with history := j.history ++ [e] }
  | .poll p =>
    { j with
      synced := update j.synced p j.history.length
      told := update j.told p j.history.length
      shown := update j.shown p (j.shown p ++ j.unseen p) }
  -- only the poller that clears knows of it
  | .clear p => ⟨[], fun _ => 0, update j.told p 0, fun _ => []⟩

def Journal.reply (j : Journal ι) (p : ι) : Response := ⟨j.history.length, j.unseen p⟩

/-- What the polls should get. -/
def Journal.replies : Journal ι → List (Op ι) → List Response
  | _, [] => []
  | j, .poll p :: ops => j.reply p :: Journal.replies (j.step (.poll p)) ops
  | j, .add e :: ops => Journal.replies (j.step (.add e)) ops
  | j, .clear p :: ops => Journal.replies (j.step (.clear p)) ops

/-- A poll whose cursor is not beyond the entries that it should begin with. -/
def Journal.Timely (j : Journal ι) (p : ι) : Prop := j.told p ≤ j.start p

/-- Every poll of the run is timely. -/
def TimelyRun : Journal ι → List (Op ι) → Prop
  | _, [] => True
  | j, .poll p :: ops => j.Timely p ∧ TimelyRun (j.step (.poll p)) ops
  | j, .add e :: ops => TimelyRun (j.step (.add e)) ops
  | j, .clear p :: ops => TimelyRun (j.step (.clear p)) ops

def Journal.after (j : Journal ι) (ops : List (Op ι)) : Journal ι := ops.foldl Journal.step j

end

/-! ## The ring and its history -/

/-- The log is the one that the entries `history` have left since the last clear. -/
structure Represents (log : Log) (history : List Entry) : Prop where
  head : log.head = history.length
  count : log.count = history.length
  holds : Ring.Holds log.buf history

theorem represents_new : Represents Log.new [] := ⟨rfl, rfl, Ring.holds_nil _⟩

section

variable {log : Log} {history : List Entry}

theorem Represents.push (h : Represents log history) (e : Entry) :
    Represents (log.push e) (history ++ [e]) where
  head := by simp [Log.push, h.head]
  count := by simp [Log.push, h.count]
  holds := by
    rw [Log.push, h.head]
    exact h.holds.write e

/-- What the buffer still holds after a clear is not read again. -/
theorem represents_clearLogs (log : Log) : Represents log.clearLogs [] :=
  ⟨rfl, rfl, Ring.holds_nil _⟩

theorem Represents.getLogs_eq (h : Represents log history) (cursor : Int) :
    log.getLogs cursor =
      if (history.length : Int) < cursor then .error .makeslice
      else .ok ⟨history.length,
        history.drop (max cursor.toNat (history.length - maxEntries))⟩ := by
  have hmax : (maxEntries : Int) = 500 := rfl
  have hnat : maxEntries = 500 := rfl
  rw [Log.getLogs]
  simp only [h.count]
  by_cases hcursor : (history.length : Int) < cursor
  · rw [if_pos (by omega), if_pos hcursor]
  · have hstart : (max cursor (max ((history.length : Int) - maxEntries) 0)).toNat =
        max cursor.toNat (history.length - maxEntries) := by omega
    rw [if_neg (by omega), if_neg hcursor, hstart, h.holds.window_eq (by omega)]

theorem Represents.getLogs_returns_iff (h : Represents log history) (cursor : Int) :
    (∃ reply, log.getLogs cursor = .ok reply) ↔ cursor ≤ log.count := by
  rw [h.getLogs_eq, h.count]
  split_ifs with hcursor
  · simp [hcursor]
  · simp only [Except.ok.injEq, exists_eq', true_iff]
    omega

end

section

variable {ι : Type}

theorem represents_logAfter (ops : List (Op ι)) :
    ∀ {log : Log} {history : List Entry}, Represents log history →
      ∃ history', Represents (logAfter log ops) history' := by
  induction ops with
  | nil => exact fun h => ⟨_, h⟩
  | cons op ops ih =>
    intro log history h
    cases op with
    | add e => exact ih (h.push e)
    | poll p => exact ih h
    | clear p => exact ih (represents_clearLogs log)

/-! ## The journal -/

variable [DecidableEq ι]

/-- The last reply was about the entries there are, or the log was cleared since. -/
structure Journal.Valid (j : Journal ι) : Prop where
  le : ∀ p, j.synced p ≤ j.history.length
  told : ∀ p, j.synced p = j.told p ∨ j.synced p = 0

omit [DecidableEq ι] in
theorem Journal.valid_init : (Journal.init : Journal ι).Valid :=
  ⟨fun _ => Nat.le_refl 0, fun _ => .inl rfl⟩

variable {j : Journal ι}

theorem Journal.Valid.step (h : j.Valid) (op : Op ι) : (j.step op).Valid := by
  cases op with
  | add e =>
    refine ⟨fun p => ?_, h.told⟩
    have hle := h.le p
    simp only [Journal.step, length_append]
    omega
  | poll p =>
    constructor
    · intro q
      by_cases hq : q = p
      · subst hq
        exact (update_self q _ j.synced).le
      · exact (update_of_ne hq _ j.synced).trans_le (h.le q)
    · intro q
      by_cases hq : q = p
      · subst hq
        exact .inl (by simp [Journal.step])
      · simpa [Journal.step, update_of_ne hq] using h.told q
  | clear p => exact ⟨fun q => Nat.le_refl 0, fun q => .inr rfl⟩

/-- The positions in the history of what a poller was shown since the last clear. -/
structure Journal.ShownAt (j : Journal ι) (p : ι) (positions : List Nat) : Prop where
  increasing : positions.Pairwise (· < ·)
  entries : positions.map (fun i => j.history[i]?) = (j.shown p).map some
  lt : ∀ i ∈ positions, i < j.synced p
  complete : ∀ i < j.synced p, j.synced p ≤ i + maxEntries → i ∈ positions

variable {p : ι} {positions : List Nat}

theorem Journal.ShownAt.add (hvalid : j.Valid) (h : j.ShownAt p positions) (e : Entry) :
    (j.step (.add e)).ShownAt p positions where
  increasing := h.increasing
  entries := by
    rw [← show _ = (((j.step (.add e)).shown p).map some) from h.entries]
    apply map_congr_left
    intro i hi
    exact getElem?_append_left ((h.lt i hi).trans_le (hvalid.le p))
  lt := h.lt
  complete := h.complete

theorem map_getElem?_range' {α : Type} (l : List α) (start : Nat) :
    (range' start (l.length - start)).map (fun i => l[i]?) = (l.drop start).map some := by
  apply ext_getElem?
  intro k
  rw [getElem?_map, getElem?_map, getElem?_drop]
  by_cases hk : start + k < l.length
  · rw [getElem?_range' (by omega), getElem?_eq_getElem hk]
    simp [getElem?_eq_getElem hk]
  · rw [getElem?_eq_none (by simp; omega), getElem?_eq_none (by omega)]
    rfl

theorem Journal.ShownAt.poll (hvalid : j.Valid) (h : j.ShownAt p positions) :
    (j.step (.poll p)).ShownAt p
      (positions ++ range' (j.start p) (j.history.length - j.start p)) := by
  have hle := hvalid.le p
  have hstart : j.synced p ≤ j.start p := le_max_left _ _
  constructor
  · rw [pairwise_append]
    refine ⟨h.increasing, pairwise_lt_range', ?_⟩
    intro i hi k hk
    have hlt := h.lt i hi
    have hge := (mem_range'_1.mp hk).1
    omega
  · simp only [Journal.step, update_self, map_append]
    rw [h.entries, map_getElem?_range', Journal.unseen]
  · intro i hi
    simp only [Journal.step, update_self]
    rcases mem_append.mp hi with hi | hi
    · have hlt := h.lt i hi
      omega
    · obtain ⟨hge, hlt⟩ := mem_range'_1.mp hi
      omega
  · intro i hi hnew
    simp only [Journal.step, update_self] at hi hnew
    rw [mem_append, mem_range'_1]
    by_cases hold : i < j.start p
    · -- it was among the newest at the previous poll too
      have hsynced : i < j.synced p := by
        rw [Journal.start] at hold
        omega
      exact .inl (h.complete i hsynced (by omega))
    · exact .inr ⟨by omega, by omega⟩

theorem Journal.ShownAt.step (hvalid : j.Valid) (h : j.ShownAt p positions) (op : Op ι) :
    ∃ positions', (j.step op).ShownAt p positions' := by
  cases op with
  | add e => exact ⟨positions, h.add hvalid e⟩
  | poll q =>
    by_cases hq : p = q
    · subst hq
      exact ⟨_, h.poll hvalid⟩
    · refine ⟨positions, h.increasing, ?_, ?_, ?_⟩
      all_goals simp only [Journal.step, update_of_ne hq]
      · exact h.entries
      · exact h.lt
      · exact h.complete
  | clear q => exact ⟨[], .nil, rfl, by simp, by simp [Journal.step]⟩

/-- A poller of the journal was shown entries once and in order, and all that were among the newest
at its previous poll. -/
theorem Journal.shown_spec (ops : List (Op ι)) (p : ι) :
    ∃ positions, (Journal.init.after ops).ShownAt p positions := by
  have hrun : ∀ (ops : List (Op ι)) (j : Journal ι) (positions : List Nat), j.Valid →
      j.ShownAt p positions → ∃ positions', (j.after ops).ShownAt p positions' := by
    intro ops
    induction ops with
    | nil => exact fun j positions _ h => ⟨positions, h⟩
    | cons op ops ih =>
      intro j positions hvalid h
      obtain ⟨positions', h'⟩ := h.step hvalid op
      exact ih (j.step op) positions' (hvalid.step op) h'
  exact hrun ops Journal.init [] Journal.valid_init ⟨.nil, rfl, by simp, by simp [Journal.init]⟩

/-! ## The log against the journal -/

/-- The log is the one of the journal, and each poller has the cursor that it was told. -/
structure Refines (w : World ι) (j : Journal ι) : Prop where
  log : Represents w.log j.history
  cursor : ∀ p, w.cursor p = j.told p

omit [DecidableEq ι] in
theorem refines_init : Refines (World.init : World ι) Journal.init :=
  ⟨represents_new, fun _ => rfl⟩

section

variable {w : World ι} {j : Journal ι} (h : Refines w j)

include h

theorem Refines.add (e : Entry) :
    Refines { w with log := w.log.push e } (j.step (.add e)) :=
  ⟨h.log.push e, h.cursor⟩

theorem Refines.clear (p : ι) :
    Refines ⟨w.log.clearLogs, update w.cursor p 0⟩ (j.step (.clear p)) where
  log := represents_clearLogs w.log
  cursor := by
    intro q
    by_cases hq : q = p
    · subst hq
      simp [Journal.step]
    · simpa [Journal.step, update_of_ne hq] using h.cursor q

theorem Refines.fetchLogs (hvalid : j.Valid) {p : ι} (htimely : j.Timely p) :
    ∃ w', w.fetchLogs p = .ok (w', j.reply p) ∧ Refines w' (j.step (.poll p)) := by
  have hle := hvalid.le p
  rw [Journal.Timely, Journal.start] at htimely
  have hreply : w.log.getLogs (w.cursor p) = .ok (j.reply p) := by
    have hstart : max (j.told p) (j.history.length - maxEntries) =
        max (j.synced p) (j.history.length - maxEntries) := by
      rcases hvalid.told p with htold | htold <;> omega
    rw [h.log.getLogs_eq, h.cursor, if_neg (by omega), Int.toNat_natCast, hstart]
    rfl
  rw [World.fetchLogs, hreply, World.receive]
  split_ifs with hempty
  · -- without entries the cursor stays, and is the one of the reply
    refine ⟨w, rfl, h.log, fun q => ?_⟩
    have hlength : j.history.length ≤ j.start p := drop_eq_nil_iff.mp hempty
    have htold : j.told p = j.history.length := by
      rw [Journal.start] at hlength
      have hmax : maxEntries = 500 := rfl
      rcases hvalid.told p with htold | htold <;> omega
    by_cases hq : q = p
    · subst hq
      simp [Journal.step, h.cursor, htold]
    · simpa [Journal.step, update_of_ne hq] using h.cursor q
  · refine ⟨_, rfl, h.log, fun q => ?_⟩
    by_cases hq : q = p
    · subst hq
      simp [Journal.step, Journal.reply]
    · simpa [Journal.step, update_of_ne hq] using h.cursor q

theorem Refines.fetchLogs_ne (hvalid : j.Valid) {p : ι} (huntimely : ¬ j.Timely p) (w' : World ι) :
    w.fetchLogs p ≠ .ok (w', j.reply p) := by
  have hle := hvalid.le p
  rw [Journal.Timely, Journal.start] at huntimely
  have hne : w.log.getLogs (w.cursor p) ≠ .ok (j.reply p) := by
    rw [h.log.getLogs_eq, h.cursor]
    split_ifs with hcursor
    · simp
    · intro hreply
      -- the reply begins later than it should
      have hlength := congrArg length
        (congrArg Response.entries (Except.ok.inj hreply))
      simp only [Journal.reply, Journal.unseen, Journal.start, length_drop,
        Int.toNat_natCast] at hlength
      omega
  intro hfetch
  rw [World.fetchLogs] at hfetch
  cases hreply : w.log.getLogs (w.cursor p) with
  | error panic =>
    rw [hreply, World.receive] at hfetch
    cases hfetch
  | ok reply =>
    rw [hreply, World.receive] at hfetch
    split_ifs at hfetch
    all_goals
      cases hfetch
      exact hne hreply

end

theorem World.run_poll (w : World ι) (p : ι) (ops : List (Op ι)) :
    w.run (.poll p :: ops) =
      (w.fetchLogs p).bind fun result => (result.1.run ops).map (result.2 :: ·) := rfl

theorem run_eq_iff (ops : List (Op ι)) : ∀ {w : World ι} {j : Journal ι}, Refines w j → j.Valid →
    (w.run ops = .ok (j.replies ops) ↔ TimelyRun j ops) := by
  induction ops with
  | nil => exact fun _ _ => iff_of_true rfl trivial
  | cons op ops ih =>
    intro w j h hvalid
    cases op with
    | add e => exact ih (h.add e) (hvalid.step (.add e))
    | clear p => exact ih (h.clear p) (hvalid.step (.clear p))
    | poll p =>
      change w.run (.poll p :: ops) = .ok (j.reply p :: (j.step (.poll p)).replies ops) ↔
        j.Timely p ∧ TimelyRun (j.step (.poll p)) ops
      by_cases htimely : j.Timely p
      · obtain ⟨w', hfetch, hrefines⟩ := h.fetchLogs hvalid htimely
        have hrest := ih hrefines (hvalid.step (.poll p))
        rw [World.run_poll, hfetch, ← hrest, and_iff_right htimely, Except.bind]
        cases w'.run ops with
        | error panic | ok replies => simp [Except.map]
      · simp only [htimely, false_and, iff_false]
        intro hrun
        rw [World.run_poll] at hrun
        cases hfetch : w.fetchLogs p with
        | error panic =>
          rw [hfetch] at hrun
          cases hrun
        | ok result =>
          obtain ⟨w', reply⟩ := result
          rw [hfetch, Except.bind] at hrun
          cases hrest : w'.run ops with
          | error panic => simp [hrest, Except.map] at hrun
          | ok replies =>
            simp only [hrest, Except.map, Except.ok.injEq, cons.injEq] at hrun
            exact h.fetchLogs_ne hvalid htimely w' (hrun.1 ▸ hfetch)

/-- **Polling**: no panic and the replies of the journal, exactly if no cursor is too large. -/
theorem polling_iff (ops : List (Op ι)) :
    (∀ cursor : Int, (∃ reply, (logAfter Log.new ops).getLogs cursor = .ok reply) ↔
      cursor ≤ (logAfter Log.new ops).count) ∧
    (World.init.run ops = .ok (Journal.init.replies ops) ↔ TimelyRun Journal.init ops) ∧
    ∀ p, ∃ positions, (Journal.init.after ops).ShownAt p positions := by
  refine ⟨?_, run_eq_iff ops refines_init Journal.valid_init, Journal.shown_spec ops⟩
  obtain ⟨history, h⟩ := represents_logAfter ops represents_new
  exact h.getLogs_returns_iff

end

theorem pollAfterForeignClear :
    let e : Entry := ⟨"12:00:00.000", "info", "x".toList⟩
    (World.init : World Bool).run [.add e, .poll false, .clear true, .poll false] =
      .error .makeslice ∧
    (World.init : World Bool).run [.add e, .poll false, .clear true, .add e, .poll false] =
      .ok [⟨1, [e]⟩, ⟨1, []⟩] ∧
    (Journal.init : Journal Bool).replies
        [.add e, .poll false, .clear true, .add e, .poll false] =
      [⟨1, [e]⟩, ⟨1, [e]⟩] :=
  ⟨rfl, rfl, rfl⟩

end NatProxy.App.LogPolling
