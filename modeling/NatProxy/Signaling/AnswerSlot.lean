import NatProxy.Signaling.Rendezvous

/-!
# The answer slot between a read and a clear

The accept loop reads an answer and clears the slot with a second request, and it clears the slot
once more before it posts the offers of the next group. Both clears are unconditional writes. So
they spare an answer that the loop has not read only if none comes in between (`Undisturbed`). Then
the slot loses an answer only to the loop, to another client or to the sweep, and the loop reads
what is in the slot (`unread_kept`). Otherwise the answer is gone (`lateAnswer_erased`).
-/

namespace NatProxy.Signaling.Rendezvous

open Lib

/-- The answers that the loop has read last. It passes what it reads to `AcceptAnswers`. -/
def State.lastRead (s : State) : Option Answers :=
  s.pc.answers.or (s.accepted.getLast?.map Accepted.answers)

def LoopPC.clearing : LoopPC → Bool
  | .received _ | .acceptAnswers _ | .waitConnected _ _ => true
  | .startServerGroup | .clearAnswers _ => true
  | _ => false

def LoopPC.sendsClear : LoopPC → Bool
  | .received _ | .clearAnswers _ => true
  | _ => false

/-- The action makes the signal server handle a clear. -/
def State.Clears (s : State) : Action → Prop
  | .loop true _ => s.pc.sendsClear = true
  | .arrive k => s.inFlight[k]? = some .clear
  | _ => False

/-- A client writes the answer slot, or `gcLoop` deletes it. -/
def Action.replaces : Action → Bool
  | .postAnswers _ | .gc => true
  | _ => false

/-- A clear overwrites only the answer read last, an unread one stays until a client or the sweep
replaces it, and the loop reads what is in the slot. -/
structure KeepsUnread (s : State) (a : Action) (t : State) : Prop where
  clears : s.Clears a → s.session.answer = none ∨ s.session.answer = s.lastRead
  keeps : ∀ b, s.session.answer = some b → a.replaces = false →
    t.session.answer = some b ∨ s.lastRead = some b
  reads : ∀ b c, s.session.answer = some b → t.pc = .received c → c = b

/-- No client posts while the loop may still clear the slot, no clear is handled after it was
reported as failed, and an answer on the event stream is read while the slot still holds it. -/
def Undisturbed (s : State) : Action → Prop
  | .postAnswers _ => s.pc.clearing = false
  | .arrive k => s.inFlight[k]? ≠ some .clear
  | .loop true _ => s.pc = .waitSDPAnswersSSE →
      s.session.answer = none ∨ s.session.answer = s.stream.head?
  | _ => True

instance (s : State) : (a : Action) → Decidable (Undisturbed s a)
  | .postAnswers _ => inferInstanceAs (Decidable (_ = _))
  | .arrive _ => inferInstanceAs (Decidable (_ ≠ _))
  | .loop true _ => inferInstanceAs (Decidable (_ → _ ∨ _))
  | .stopServer | .gc | .readOffers _ | .streamAnswer | .loop false _ => isTrue trivial

/-- While the loop may still clear it, the slot is empty or holds what was read. -/
def ReadOrEmpty (s : State) : Prop :=
  s.pc.clearing = true → s.session.answer = none ∨ s.session.answer = s.lastRead

/-! ## The requests of the loop -/

variable {s : State}

theorem lastRead_of_answers {a : Answers} (h : s.pc.answers = some a) : s.lastRead = some a := by
  rw [State.lastRead, h]
  rfl

variable {t : State}

theorem lastRead_congr (hs : s.pc.answers = none) (ht : t.pc.answers = none)
    (h : t.accepted = s.accepted) : t.lastRead = s.lastRead := by
  rw [State.lastRead, State.lastRead, hs, ht, h]

theorem acceptAnswers_lastRead {a : Answers} (hpc : s.pc = .acceptAnswers a)
    (currOk prevOk : Bool) : (s.acceptAnswers a currOk prevOk).lastRead = some a := by
  have hnone := (acceptAnswers_spec hpc currOk prevOk).pc
  rw [State.lastRead, hnone, State.acceptAnswers]
  cases s.prevWrtcGroup <;> simp [State.logAccept]

theorem send_offers_answer (s : State) (g : Nat) (ok : Bool) :
    (s.send (.offers g) ok).session.answer = s.session.answer := by
  cases ok <;> rfl

theorem clearing_of_sendsClear {pc : LoopPC} (h : pc.sendsClear = true) : pc.clearing = true := by
  cases pc with
  | received a | clearAnswers g => rfl
  | _ => cases h

/-! ## One step -/

inductive SlotCase (s : State) (ok : Bool) (t : State) : Prop where
  | reads (a : Answers) (hs : s.pc.sendsClear = false) (hpc : t.pc = .received a)
      (hsession : t.session = s.session) (hfrom : ok = true ∧
        ((s.pc = .waitSDPAnswersSSE ∧ s.stream.head? = some a) ∨ s.session.answer = some a))
  | clears (hs : s.pc.sendsClear = true)
      (hlast : t.pc.clearing = true → t.lastRead = s.lastRead)
      (hread : ∀ c, t.pc ≠ .received c)
      (hsession : t.session.answer = if ok then none else s.session.answer)
  | keeps (hs : s.pc.sendsClear = false)
      (hclearing : t.pc.clearing = true → s.pc.clearing = true ∧ t.lastRead = s.lastRead)
      (hread : ∀ c, t.pc ≠ .received c) (hsession : t.session.answer = s.session.answer)

theorem slot_cases {ok prev : Bool} (h : s.advance ok prev = some t) : SlotCase s ok t := by
  unfold State.advance at h
  cases hpc : s.pc with
  | head =>
    rw [hpc] at h
    cases h
    refine .keeps (by rw [hpc]; rfl) ?_ ?_ rfl
    all_goals cases s.serverRunning <;> simp [LoopPC.clearing]
  | waitSDPAnswersSSE =>
    rw [hpc] at h
    cases ok with
    | false => cases h; exact .keeps (by rw [hpc]; rfl) (by simp [LoopPC.clearing]) (by simp) rfl
    | true =>
      obtain ⟨a, ha, rfl⟩ := Option.map_eq_some_iff.1 h
      exact .reads a (by rw [hpc]; rfl) rfl rfl ⟨rfl, .inl ⟨hpc, ha⟩⟩
  | pollForSDPAnswers =>
    rw [hpc] at h
    cases ok with
    | false =>
      cases h
      refine .keeps (by rw [hpc]; rfl) ?_ ?_ rfl
      all_goals cases s.serverRunning <;> simp [LoopPC.clearing]
    | true =>
      obtain ⟨a, ha, rfl⟩ := Option.map_eq_some_iff.1 h
      exact .reads a (by rw [hpc]; rfl) rfl rfl ⟨rfl, .inr ha⟩
  | rePost =>
    rw [hpc] at h
    cases h
    exact .keeps (by rw [hpc]; rfl) (by simp [LoopPC.clearing]) (by simp)
      (send_offers_answer s _ ok)
  | received a =>
    rw [hpc] at h
    cases h
    refine .clears (by rw [hpc]; rfl) (fun _ => ?_) (by simp) (by cases ok <;> rfl)
    rw [lastRead_of_answers (by rw [hpc]; rfl : s.pc.answers = some a)]
    rfl
  | acceptAnswers a =>
    rw [hpc] at h
    cases h
    have hspec := acceptAnswers_spec hpc ok prev
    refine .keeps (by rw [hpc]; rfl) (fun _ => ⟨by rw [hpc]; rfl, ?_⟩) (fun c hc => ?_)
      (by rw [hspec.session])
    · rw [acceptAnswers_lastRead hpc, lastRead_of_answers (by rw [hpc]; rfl)]
    · have hnone := hspec.pc
      rw [hc] at hnone
      cases hnone
  | waitConnected currOk prevOk =>
    rw [hpc] at h
    cases h
    exact .keeps (by rw [hpc]; rfl)
      (fun _ => ⟨by rw [hpc]; rfl, lastRead_congr (by rw [hpc]; rfl) rfl rfl⟩) (by simp) rfl
  | startServerGroup =>
    rw [hpc] at h
    have goto : ∀ (pc : LoopPC) (created : Nat), pc.answers = none →
        SlotCase s ok { s with pc := pc, created := created } := by
      intro pc created hnone
      refine .keeps (by rw [hpc]; rfl)
        (fun _ => ⟨by rw [hpc]; rfl, lastRead_congr (by rw [hpc]; rfl) hnone rfl⟩) ?_ rfl
      intro c hc
      dsimp only at hc
      rw [hc] at hnone
      cases hnone
    dsimp only at h
    split at h
    · cases h; exact goto _ _ rfl
    · split at h
      · cases h; exact goto _ _ rfl
      · cases h; exact goto _ _ rfl
  | clearAnswers new =>
    rw [hpc] at h
    cases h
    exact .clears (by rw [hpc]; rfl) (by simp [LoopPC.clearing]) (by simp) (by cases ok <;> rfl)
  | postSDPOffers new =>
    rw [hpc] at h
    cases ok with
    | true | false =>
      cases h
      exact .keeps (by rw [hpc]; rfl) (by simp [LoopPC.clearing]) (by simp) rfl
  | done => rw [hpc] at h; cases h

variable {a : Action}

theorem step_of_other (hok : Undisturbed s a) (h : step s a = some t)
    (hloop : ∀ ok prev, a ≠ .loop ok prev) : t.pc = s.pc ∧ t.accepted = s.accepted ∧
      (t.session.answer = s.session.answer ∨ a.replaces = true ∧
        (t.session.answer = none ∨ s.pc.clearing = false)) := by
  cases a with
  | stopServer => cases h; exact ⟨rfl, rfl, .inl rfl⟩
  | gc => cases h; exact ⟨rfl, rfl, .inr ⟨rfl, .inl rfl⟩⟩
  | arrive k =>
    obtain ⟨r, hr, rfl⟩ := Option.map_eq_some_iff.1 h
    cases r with
    | offers g => exact ⟨rfl, rfl, .inl rfl⟩
    | clear => exact absurd hr hok
  | readOffers j =>
    obtain ⟨g, -, rfl⟩ := Option.map_eq_some_iff.1 h
    exact ⟨rfl, rfl, .inl rfl⟩
  | postAnswers j =>
    obtain ⟨o, -, rfl⟩ := Option.map_eq_some_iff.1 h
    exact ⟨rfl, rfl, .inr ⟨rfl, .inr hok⟩⟩
  | streamAnswer =>
    obtain ⟨b, -, rfl⟩ := Option.map_eq_some_iff.1 h
    exact ⟨rfl, rfl, .inl rfl⟩
  | loop ok prev => exact absurd rfl (hloop ok prev)

theorem step_readOrEmpty (hs : ReadOrEmpty s) (hok : Undisturbed s a)
    (h : step s a = some t) : ReadOrEmpty t := by
  intro hclearing
  by_cases hloop : ∃ ok prev, a = .loop ok prev
  · obtain ⟨ok, prev, rfl⟩ := hloop
    cases slot_cases h with
    | reads b hquiet hpc hsession hfrom =>
      obtain ⟨rfl, ⟨hwait, hhead⟩ | hslot⟩ := hfrom
      · -- the slot still holds what the stream carries
        rw [lastRead_of_answers (by rw [hpc]; rfl : t.pc.answers = some b), hsession, ← hhead]
        exact hok hwait
      · rw [lastRead_of_answers (by rw [hpc]; rfl : t.pc.answers = some b), hsession]
        exact .inr hslot
    | clears hpc hlast hread hsession =>
      rw [hsession]
      cases ok with
      | true => exact .inl rfl
      | false =>
        rw [hlast hclearing]
        exact hs (clearing_of_sendsClear hpc)
    | keeps hpc hkeeps hread hsession =>
      obtain ⟨hbefore, hlast⟩ := hkeeps hclearing
      rw [hsession, hlast]
      exact hs hbefore
  · obtain ⟨hpc, haccepted, hslot⟩ :=
      step_of_other hok h fun ok prev heq => hloop ⟨ok, prev, heq⟩
    rw [hpc] at hclearing
    rcases hslot with hsame | ⟨-, hnone | hidle⟩
    · rw [hsame, State.lastRead, hpc, haccepted]
      exact hs hclearing
    · exact .inl hnone
    · rw [hidle] at hclearing
      cases hclearing

theorem step_keepsUnread (hs : ReadOrEmpty s) (hok : Undisturbed s a)
    (h : step s a = some t) : KeepsUnread s a t := by
  by_cases hloop : ∃ ok prev, a = .loop ok prev
  · obtain ⟨ok, prev, rfl⟩ := hloop
    cases slot_cases h with
    | reads b hquiet hpc hsession hfrom =>
      obtain ⟨rfl, hfrom⟩ := hfrom
      have hslot : ∀ c, s.session.answer = some c → b = c := by
        intro c hc
        rcases hfrom with ⟨hwait, hhead⟩ | hb
        · rcases hok hwait with hnone | hsame
          · rw [hnone] at hc
            cases hc
          · rw [hsame, hhead] at hc
            exact Option.some.inj hc
        · exact Option.some.inj (hb.symm.trans hc)
      refine ⟨fun hclears => ?_, fun c hc _ => .inl (by rw [hsession]; exact hc), ?_⟩
      · have hboth : s.pc.sendsClear = true := hclears
        rw [hquiet] at hboth
        cases hboth
      · intro c d hc hd
        rw [hpc] at hd
        cases hd
        exact hslot c hc
    | clears hpc hlast hread hsession =>
      have hempty := hs (clearing_of_sendsClear hpc)
      refine ⟨fun _ => hempty, fun b hb _ => .inr ?_, fun _ c _ hc => absurd hc (hread c)⟩
      rcases hempty with hnone | hsame
      · rw [hnone] at hb
        cases hb
      · rw [← hsame, hb]
    | keeps hpc hkeeps hread hsession =>
      refine ⟨fun hclears => ?_, fun b hb _ => .inl (by rw [hsession]; exact hb),
        fun _ c _ hc => absurd hc (hread c)⟩
      cases ok with
      | true =>
        have hboth : s.pc.sendsClear = true := hclears
        rw [hpc] at hboth
        cases hboth
      | false => exact hclears.elim
  · obtain ⟨hpc, haccepted, hslot⟩ :=
      step_of_other hok h fun ok prev heq => hloop ⟨ok, prev, heq⟩
    refine ⟨fun hclears => ?_, fun b hb hno => .inl ?_, fun b c hb hc => ?_⟩
    · cases a with
      | arrive k => exact absurd hclears hok
      | loop ok prev => exact absurd ⟨ok, prev, rfl⟩ hloop
      | stopServer | gc | readOffers j | postAnswers j | streamAnswer => exact hclears.elim
    · rcases hslot with hsame | ⟨hyes, -⟩
      · rw [hsame, hb]
      · rw [hno] at hyes
        cases hyes
    · -- the answer in the hands of the loop is the one in the slot
      rw [hpc] at hc
      rcases hs (by rw [hc]; rfl) with hnone | hsame
      · rw [hnone] at hb
        cases hb
      · rw [hsame, lastRead_of_answers (by rw [hc]; rfl : s.pc.answers = some c)] at hb
        exact Option.some.inj hb

/-! ## All interleavings -/

theorem readOrEmpty_start : ReadOrEmpty start := by
  intro hclearing
  cases hclearing

/-- **No unread answer is erased** in an undisturbed run. -/
theorem unread_kept (acts : List Action) (h : AllSteps step Undisturbed start acts) :
    AllSteps step (fun s a => ∀ t, step s a = some t → KeepsUnread s a t) start acts := by
  refine allSteps_of_invariant ReadOrEmpty (fun s a t hs hok hstep => ?_)
    (fun s a t hs hok hstep => ?_) acts start readOrEmpty_start h
  · exact step_readOrEmpty hs hok hstep
  · intro u hu
    exact step_keepsUnread hs hok hu

def servedRun : List Action :=
  nextGroupRun ++ .readOffers 2 :: serveRun 2

theorem unread_kept_served :
    ∃ t, run step start servedRun = some t ∧ t.accepted.length = 2 ∧
      AllSteps step (fun s a => ∀ t, step s a = some t → KeepsUnread s a t) start servedRun :=
  ⟨_, rfl, rfl, unread_kept servedRun (by decide)⟩

/-! ## An answer that comes too late -/

/-- The next step of the loop clears the slot while it holds `b`, and then nobody has `b`. -/
def Erased (before : List Action) (b : Answers) : Prop :=
  ∃ s t, run step start before = some s ∧ s.session.answer = some b ∧ s.lastRead ≠ some b ∧
    step s (.loop true false) = some t ∧ ¬ t.Around b

def readRun : List Action :=
  [.readOffers 0, .readOffers 1, .postAnswers 0, .loop true false, .streamAnswer, .loop true false]

theorem lateAnswer_erased :
    Erased (readRun ++ [.postAnswers 1]) ⟨1, ⟨0, 1⟩⟩ ∧
      Erased (readRun ++ List.replicate 4 (.loop true false) ++ [.postAnswers 1]) ⟨1, ⟨0, 1⟩⟩ := by
  constructor
  · refine ⟨_, _, rfl, rfl, by decide, rfl, ?_⟩
    rintro (h | h | h | ⟨e, he, -⟩)
    · cases h
    · revert h; decide
    · revert h; decide
    · cases he
  · refine ⟨_, _, rfl, rfl, by decide, rfl, ?_⟩
    rintro (h | h | h | ⟨e, he, hb⟩)
    · cases h
    · revert h; decide
    · revert h; decide
    · cases List.mem_singleton.1 he
      cases hb

end NatProxy.Signaling.Rendezvous
