import Inlay.Proofs.Session.Nesting

set_option autoImplicit false

/-! # Progress

The phase of a document never falls, whatever is done with it, and neither does the number of hooks
that were started (`Change.phase_le`, `Change.started_le`). A step that answers that there are more
has taken the document to a later phase or has run a hook, and it answers that there are none if and
only if the document was complete, which it then leaves alone (`phase_progress`). This holds of
every step that is called, by the host or by a hook, and of hooks that do whatever they may
(`HookActs`).
-/

namespace Inlay

open Relation (ReflTransGen)

namespace Document

/-! ## The phase never falls -/

theorem Act.phase_le {d d' : Document} (h : Act d d') : d.phase ≤ d'.phase := by
  cases h with
  | install text hp =>
      rw [install_phase]
      exact Nat.le_of_lt_succ hp
  | tokenize hp h =>
      obtain ⟨s, _, _, rfl⟩ := tokenize_eq_ok h
      rw [hp]
      exact (by decide : Phase.hasSourceText ≤ .tokenized)
  | misread hp =>
      rw [hp]
      exact (by decide : Phase.hasSourceText ≤ .tokenizing)
  | settle ss hp hs =>
      rw [hp]
      exact (by decide : Phase.tokenized ≤ .fetchedAllInserts)
  | forsake ss hp hs =>
      rw [hp]
      exact (by decide : Phase.tokenized ≤ .fetchingInserts)
  | merge hp hj =>
      rw [hp]
      exact (by decide : Phase.fetchedAllInserts ≤ .segmentsMerged)
  | replace text hp => exact Nat.le_refl _

/-- No change takes a document back to an earlier phase. -/
theorem Change.phase_le {d d' : Document} (h : Change d d') : d.phase ≤ d'.phase := by
  cases h with
  | act ha => exact ha.phase_le
  | load text hp =>
      rw [hp]
      exact (by decide : Phase.init ≤ .readSourceFile)
  | release hp =>
      rw [hp]
      exact (by decide : Phase.segmentsMerged ≤ .runningHooks)
  | start hp hn =>
      rw [nextHook?_phase hn]
      exact Nat.le_refl _
  | finish hp hn =>
      rw [hp]
      exact (by decide : Phase.runningHooks ≤ .done)
  | enqueue queue script => cases queue <;> exact Nat.le_refl _
  | equip filename options registry bindings loader => exact Nat.le_refl _

theorem phase_le_of_changes {d d' : Document} (h : ReflTransGen Change d d') :
    d.phase ≤ d'.phase :=
  preserved_of_steps (fun d' => d.phase ≤ d'.phase) h
    (fun hc hle => Nat.le_trans hle hc.phase_le) (Nat.le_refl _)

/-! ## The number of hooks that were started -/

theorem Change.started_le {d d' : Document} (h : Change d d') : d.started ≤ d'.started := by
  cases h with
  | act ha => exact Nat.le_of_eq ha.sameHooks.started.symm
  | load text hp => exact Nat.le_refl _
  | release hp => exact Nat.le_refl _
  | start hp hn =>
      obtain ⟨_, _, _, rfl⟩ := nextHook?_eq_some hn
      exact Nat.le_succ _
  | finish hp hn => exact Nat.le_refl _
  | enqueue queue script => cases queue <;> exact Nat.le_refl _
  | equip filename options registry bindings loader => exact Nat.le_refl _

theorem started_le_of_changes {d d' : Document} (h : ReflTransGen Change d d') :
    d.started ≤ d'.started :=
  preserved_of_steps (fun d' => d.started ≤ d'.started) h
    (fun hc hle => Nat.le_trans hle hc.started_le) (Nat.le_refl _)

end Document

namespace Machine

variable {horizon : Nat} {below : List Frame} {m m' : Machine} {s s' : Session}

/-! ## Steps that are called -/

/-- What can happen when a step that was called on top of the frames `below` has started a hook:
anything, as long as something stands on top of the frame of the step. -/
def HookActs (below : List Frame) (m m' : Machine) : Prop :=
  Event m m' ∧ ∃ top, top ≠ [] ∧ m.stack = top ++ .report true :: below

/-- Whether a step that is called on top of the frames `below` is answered, and which session it
leaves. The hook that it starts may do anything, and may go on after an error. -/
def StepAnswers (below : List Frame) (s s' : Session) (more : Bool) : Prop :=
  ∃ (horizon : Nat) (m : Machine), move horizon ⟨.step :: below, s⟩ = .next m ∧
    ReflTransGen (HookActs below) m ⟨.report more :: below, s'⟩

/-- Where a stack becomes shorter, frames were taken off it. -/
theorem Next.suffix (h : Next horizon m m') (hl : m'.stack.length < m.stack.length) :
    m'.stack <:+ m.stack := by
  cases h with
  | noted hb => exact List.suffix_cons _ _
  | moved hf ha => exact absurd hl (Nat.lt_irrefl _)
  | started hf ha => exact absurd hl (Nat.not_lt_of_le (Nat.le_succ _))
  | rendered hp => exact List.suffix_cons _ _
  | stepped hp => exact absurd hl (Nat.lt_irrefl _)
  | ended => exact List.suffix_cons _ _
  | queued => exact absurd hl (Nat.lt_irrefl _)
  | renders => exact absurd hl (Nat.not_lt_of_le (Nat.le_succ _))
  | steps => exact absurd hl (Nat.not_lt_of_le (Nat.le_succ _))
  | performed hp => exact absurd hl (Nat.lt_irrefl _)

theorem Event.suffix (h : Event m m') (hl : m'.stack.length < m.stack.length) :
    m'.stack <:+ m.stack := by
  cases h with
  | act horizon action => exact absurd hl (Nat.lt_irrefl _)
  | enqueue queue script => exact absurd hl (Nat.lt_irrefl _)
  | call hf => exact absurd hl (Nat.not_lt_of_le (Nat.le_succ _))
  | move h => exact (move_next h).suffix hl
  | halt h hb => exact hb
  | drop hb => exact hb
  | settle ss hp hs => exact absurd hl (Nat.lt_irrefl _)
  | forsake ss hp hs => exact absurd hl (Nat.lt_irrefl _)
  | equip filename options registry bindings loader => exact absurd hl (Nat.lt_irrefl _)
  | elsewhere outlet notes handles now => exact absurd hl (Nat.lt_irrefl _)

/-- A step whose frame is the topmost has no hook that could act. -/
theorem HookActs.length_lt (h : HookActs below m m') : below.length + 1 < m.stack.length := by
  obtain ⟨-, top, htop, hstack⟩ := h
  have hpos := List.length_pos_iff.mpr htop
  rw [hstack, List.length_append, List.length_cons]
  omega

theorem eq_of_hookActs {frame : Frame}
    (h : ReflTransGen (HookActs below) ⟨frame :: below, s⟩ m) : m = ⟨frame :: below, s⟩ := by
  cases h.cases_head with
  | inl heq => exact heq.symm
  | inr hhead =>
      obtain ⟨_, hacts, -⟩ := hhead
      exact absurd hacts.length_lt (Nat.lt_irrefl _)

/-- A hook that was started leaves the answer of its step as it is. -/
theorem HookActs.answer {more : Bool} (h : HookActs below m ⟨.report more :: below, s⟩) :
    more = true := by
  have hl := h.length_lt
  obtain ⟨he, top, -, hstack⟩ := h
  have hsuffix := he.suffix hl
  rw [hstack] at hsuffix
  have heq := (List.suffix_of_suffix_length_le hsuffix (List.suffix_append _ _)
    (Nat.le_refl _)).eq_of_length rfl
  cases heq
  rfl

/-- How a step that is called is answered. -/
inductive Answered (s s' : Session) : Bool → Prop where
  | moved {horizon : Nat} (ha : s.advance horizon = (s', .moved)) : Answered s s' true
  | ran {horizon : Nat} {s₁ : Session} {label : String} {script : Script}
    (ha : s.advance horizon = (s₁, .started label script))
    (hr : ReflTransGen Document.Change s₁.document s'.document) : Answered s s' true
  | finished (hp : s.document.phase = .done) (hs : s' = s) : Answered s s' false

theorem StepAnswers.answered {more : Bool} (h : StepAnswers below s s' more) :
    Answered s s' more := by
  obtain ⟨horizon, m, hm, hr⟩ := h
  cases move_next hm with
  | moved hf ha =>
      cases hf
      cases eq_of_hookActs hr
      exact .moved ha
  | started hf ha =>
      cases hf
      have hc := Reaches.changes (ReflTransGen.mono (fun _ _ h => h.1) _ _ hr)
      cases hr.cases_tail with
      | inl heq => cases heq
      | inr hlast =>
          obtain ⟨_, -, hlast⟩ := hlast
          cases hlast.answer
          exact .ran ha hc
  | stepped hp =>
      cases eq_of_hookActs hr
      exact .finished hp rfl

theorem hookActs_of_moves (h : Moves horizon m m') (below : List Frame) :
    ReflTransGen (HookActs below) (m.onto (.report true :: below))
      (m'.onto (.report true :: below)) :=
  h.lift (Machine.onto · (.report true :: below)) fun m _ hn =>
    ⟨.move (move_onto hn _), m.stack, stack_ne_nil hn, rfl⟩

/-- A step that the host calls is answered on top of any frames. -/
theorem stepAnswers_of_step {more : Bool} (h : s.step horizon = (s', .returned more))
    (below : List Frame) : StepAnswers below s s' more := by
  cases Session.stepped h with
  | moved ha => exact ⟨horizon, _, move_moved .step below ha, .refl⟩
  | ran ha hr =>
      exact ⟨horizon, _, move_started .step below ha, hookActs_of_moves (hook_returned hr) below⟩
  | finished hp =>
      exact ⟨horizon, _, move_stepped below (Session.advance_complete horizon hp), .refl⟩

/-- A step that answers that there are more gets somewhere. -/
theorem Answered.progress (h : Answered s s' true) :
    s.document.phase < s'.document.phase ∨
      s.document.phase = .runningHooks ∧ s.document.started < s'.document.started := by
  cases h with
  | moved ha => exact .inl (Session.advance_moved ha).2
  | ran ha hr =>
      obtain ⟨hp, hn⟩ := Session.advance_started ha
      obtain ⟨_, _, _, hs₁⟩ := Document.nextHook?_eq_some hn
      have hle := Document.started_le_of_changes hr
      rw [hs₁] at hle
      exact .inr ⟨hp, hle⟩

theorem step_of_done (horizon : Nat) (hp : s.document.phase = .done) :
    s.step horizon = (s, .returned false) :=
  (run_next (move_stepped [] (Session.advance_complete horizon hp))).trans (run_halt rfl)

/-- A step that answers that there are none finds the document complete, and leaves it alone. -/
theorem stepAnswers_false_iff :
    StepAnswers below s s' false ↔ s.document.phase = .done ∧ s' = s := by
  constructor
  · intro h
    cases h.answered with
    | finished hp hs => exact ⟨hp, hs⟩
  · rintro ⟨hp, rfl⟩
    exact stepAnswers_of_step (step_of_done 0 hp) below

/-- **The phase of a document never falls, and every step gets somewhere.** Whoever calls it, a step
that answers that there are more ends in a later phase, unless it was called while hooks run, and
then it has started one. It answers that there are none if and only if the document was complete,
and then it changes nothing. -/
theorem phase_progress (h : m.Reaches m') (below : List Frame) (s : Session) :
    m.session.document.phase ≤ m'.session.document.phase ∧
      (StepAnswers below m'.session s true →
        m'.session.document.phase < s.document.phase ∨
          m'.session.document.phase = .runningHooks ∧
            m'.session.document.started < s.document.started) ∧
      (StepAnswers below m'.session s false ↔
        m'.session.document.phase = .done ∧ s = m'.session) ∧
      ∀ horizon, (∀ more, m'.session.step horizon = (s, .returned more) →
          StepAnswers below m'.session s more) ∧
        (m'.session.document.phase = .done →
          m'.session.step horizon = (m'.session, .returned false)) := by
  refine ⟨Document.phase_le_of_changes h.changes, fun ha => ha.answered.progress,
    stepAnswers_false_iff, fun horizon => ⟨fun more hs => stepAnswers_of_step hs below, ?_⟩⟩
  exact step_of_done horizon

/-- A merged document with two hooks, the first of which makes a step. -/
def stepping : Session where
  document :=
    { phase := .runningHooks
      merged := some ""
      postHooks := [[.step], []] }

/-- The step of the first hook is answered when the second has run, while the first still runs. -/
theorem stepping_progress : ∃ (s s' : Session) (label : String),
    Reaches ⟨[.render], stepping⟩ ⟨[.step, .hook label [], .render], s⟩ ∧
      StepAnswers [.hook label [], .render] s s' true ∧
      s.document.phase = .runningHooks ∧ s.document.started < s'.document.started := by
  let label : String := Queue.post.name ++ "#" ++ toString 1
  let s : Session := { document := { stepping.document with postHooks := [[]], started := 1 } }
  let s' : Session := { document := { stepping.document with postHooks := [], started := 2 } }
  have hstart : move 0 ⟨[.render], stepping⟩ = .next ⟨[.hook label [.step], .render], s⟩ := rfl
  have hreach : Reaches ⟨[.render], stepping⟩ ⟨[.step, .hook label [], .render], s⟩ :=
    .head (.move hstart) (.single (.move (show move 0 _ = _ from rfl)))
  have hstep : s.step 0 = (s', .returned true) := by
    -- the second hook starts and ends
    iterate 2 refine (run_next rfl).trans ?_
    exact run_halt rfl
  have hanswer : StepAnswers [.hook label [], .render] s s' true := stepAnswers_of_step hstep _
  refine ⟨s, s', label, hreach, hanswer, ?_⟩
  obtain ⟨-, hprogress, -⟩ := phase_progress hreach [.hook label [], .render] s'
  rcases hprogress hanswer with hlt | hlt
  · exact absurd hlt (by decide)
  · exact hlt

end Machine

end Inlay
