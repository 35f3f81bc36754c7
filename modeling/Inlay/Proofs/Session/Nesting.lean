import Inlay.Proofs.Session.Passage

set_option autoImplicit false

/-! # Calls on top of others

What is under way on top of a stack does not see the frames below it: it makes the moves that it
makes alone (`move_onto`), and an error that comes out of it goes on through the frames below
(`run_onto_failed`). A hook that a step starts runs as it would alone, and if it fails then by an
error of its own (`stepped`, `hook_failed`). To render is to repeat steps until one of them does not
answer that there are more (`exists_last_step`).
-/

namespace Inlay

open Relation (ReflTransGen TransGen)

/-- An error comes out of a stack by way of its upper part. -/
theorem unwind_append (e : RenderError) (top below : List Frame) :
    unwind e (top ++ below) = unwind (unwind e top) below := by
  induction top generalizing e with
  | nil => rfl
  | cons frame top ih => cases frame <;> exact ih _

/-- The label of a hook. -/
def Frame.label? : Frame → Option String
  | .hook label _ => some label
  | _ => none

theorem Frame.Drives.label?_eq {frame after : Frame} (h : frame.Drives after) :
    after.label? = frame.label? := by
  cases h <;> rfl

namespace Machine

variable {horizon : Nat} {m m' : Machine} {s s' : Session}

/-! ## The outermost frame -/

/-- The label of the outermost frame, if it is a hook. -/
def base (stack : List Frame) : Option String := stack.getLast?.bind Frame.label?

theorem base_push (frame : Frame) {below : List Frame} (h : below ≠ []) :
    base (frame :: below) = base below := by
  obtain ⟨frame', below, rfl⟩ := List.exists_cons_of_ne_nil h
  unfold base
  rw [List.getLast?_cons_cons]

theorem base_congr {frame frame' : Frame} (h : frame'.label? = frame.label?)
    (below : List Frame) : base (frame' :: below) = base (frame :: below) := by
  by_cases hb : below = []
  · subst hb
    exact h
  · rw [base_push frame hb, base_push frame' hb]

/-- A frame that ends uncovers the frame below it, or leaves the stack empty. -/
theorem base_pop (frame : Frame) (below : List Frame) :
    base below = base (frame :: below) ∨ below = [] := by
  by_cases hb : below = []
  · exact .inr hb
  · exact .inl (base_push frame hb).symm

/-- The outermost frame stays until it ends. -/
theorem Next.base_eq (h : Next horizon m m') :
    base m'.stack = base m.stack ∨ m'.stack = [] := by
  cases h with
  | noted hb => exact base_pop _ _
  | moved hf ha => exact .inl (base_congr hf.label?_eq _)
  | started hf ha =>
      exact .inl ((base_push _ (List.cons_ne_nil _ _)).trans (base_congr hf.label?_eq _))
  | rendered hp => exact base_pop _ _
  | stepped hp => exact .inl (base_congr (by rfl) _)
  | ended => exact base_pop _ _
  | queued => exact .inl (base_congr (by rfl) _)
  | renders =>
      exact .inl ((base_push _ (List.cons_ne_nil _ _)).trans (base_congr (by rfl) _))
  | steps =>
      exact .inl ((base_push _ (List.cons_ne_nil _ _)).trans (base_congr (by rfl) _))
  | performed hp => exact .inl (base_congr (by rfl) _)

/-- A machine with nothing under way makes no move. -/
theorem stack_ne_nil (h : m.move horizon = .next m') : m.stack ≠ [] := by
  intro hnil
  obtain ⟨stack, s⟩ := m
  cases hnil
  cases h

theorem Moves.base_eq (h : Moves horizon m m') :
    base m'.stack = base m.stack ∨ m'.stack = [] := by
  induction h with
  | refl => exact .inl rfl
  | tail _ hn ih =>
      rcases ih with ih | hnil
      · rw [← ih]
        exact (move_next hn).base_eq
      · exact absurd hnil (stack_ne_nil hn)

/-- An error that comes out of a hook tells of the hook. -/
theorem unwind_base {label : String} {stack : List Frame} (e : RenderError)
    (h : base stack = some label) : ∃ reason, unwind e stack = .hook label reason := by
  induction stack generalizing e with
  | nil => cases h
  | cons frame below ih =>
      by_cases hb : below = []
      · subst hb
        cases frame with
        | hook label' rest =>
            cases h
            exact ⟨e.message, rfl⟩
        | render => cases h
        | step => cases h
        | report more => cases h
      · rw [base_push frame hb] at h
        cases frame <;> exact ih _ h

theorem unwind_hook {label label' : String} {rest : Script} {below : List Frame} (reason : String)
    (h : base (.hook label' rest :: below) = some label) :
    ∃ reason', unwind (.hook label' reason) below = .hook label reason' := by
  by_cases hb : below = []
  · subst hb
    cases h
    exact ⟨reason, rfl⟩
  · exact unwind_base _ ((base_push _ hb).symm.trans h)

/-- A hook fails by an error of its own. -/
theorem hook_failed {label : String} {script : Script} {e : RenderError}
    (h : Machine.run horizon ⟨[.hook label script], s⟩ = (s', .failed e)) :
    ∃ reason, e = .hook label reason := by
  obtain ⟨m, hm, hh⟩ := run_halts horizon ⟨[.hook label script], s⟩
  rw [h] at hh
  have hbase := Moves.base_eq hm
  cases move_halts hh with
  | @refused frame after below _ _ e hf ha =>
      rcases hbase with hbase | hnil
      · -- the frame that drives the rendering is not the hook, so that there are frames below it
        have hne : below ≠ [] := by
          rintro rfl
          cases hf <;> cases hbase
        rw [base_push frame hne] at hbase
        exact unwind_base e hbase
      · cases hnil
  | @failed label' action rest below _ _ reason hp =>
      rcases hbase with hbase | hnil
      · exact unwind_hook reason hbase
      · cases hnil

/-- A hook that does not fail leaves nothing under way. -/
theorem hook_returned {label : String} {script : Script} {more : Bool}
    (h : Machine.run horizon ⟨[.hook label script], s⟩ = (s', .returned more)) :
    Moves horizon ⟨[.hook label script], s⟩ ⟨[], s'⟩ := by
  obtain ⟨m, hm, hh⟩ := run_halts horizon ⟨[.hook label script], s⟩
  rw [h] at hh
  cases move_halts hh with
  | idle => exact hm
  | answered =>
      rcases Moves.base_eq hm with hbase | hnil
      · cases hbase
      · cases hnil

/-! ## Moves come to an end -/

theorem nearer_lex (h : Nearer m m') :
    Prod.Lex (· < ·) (Prod.Lex (· < ·) (· < ·)) (m.load, m.phasesLeft, m.weight)
      (m'.load, m'.phasesLeft, m'.weight) := by
  rcases h with h | ⟨h, h' | ⟨h', h''⟩⟩
  · exact .left _ _ h
  · rw [h]
    exact .right _ (.left _ _ h')
  · rw [h, h']
    exact .right _ (.right _ h'')

theorem wellFounded_move (horizon : Nat) :
    WellFounded fun m' m : Machine => m.move horizon = .next m' :=
  Subrelation.wf (fun hn => nearer_lex (move_nearer hn))
    (InvImage.wf (fun m : Machine => (m.load, m.phasesLeft, m.weight))
      (Prod.lex Nat.lt_wfRel (Prod.lex Nat.lt_wfRel Nat.lt_wfRel)).wf)

/-! ## Frames that drive the rendering -/

section Drives

variable {frame after : Frame} (hf : frame.Drives after) (below : List Frame)

include hf

theorem move_moved (ha : s.advance horizon = (s', .moved)) :
    (Machine.mk (frame :: below) s).move horizon = .next ⟨after :: below, s'⟩ := by
  unfold move
  cases hf with
  | render =>
      dsimp only
      rw [ha]
  | step =>
      dsimp only
      rw [ha]

theorem move_started {label : String} {script : Script}
    (ha : s.advance horizon = (s', .started label script)) :
    (Machine.mk (frame :: below) s).move horizon =
      .next ⟨.hook label script :: after :: below, s'⟩ := by
  unfold move
  cases hf with
  | render =>
      dsimp only
      rw [ha]
  | step =>
      dsimp only
      rw [ha]

theorem move_refused {e : RenderError} (ha : s.advance horizon = (s', .failed e)) :
    (Machine.mk (frame :: below) s).move horizon = .halt s' (.failed (unwind e below)) := by
  unfold move
  cases hf with
  | render =>
      dsimp only
      rw [ha]
  | step =>
      dsimp only
      rw [ha]

theorem move_waited (ha : s.advance horizon = (s', .suspended)) :
    (Machine.mk (frame :: below) s).move horizon = .halt s' .suspended := by
  unfold move
  cases hf with
  | render =>
      dsimp only
      rw [ha]
  | step =>
      dsimp only
      rw [ha]

end Drives

theorem move_rendered (below : List Frame) (ha : s.advance horizon = (s', .finished)) :
    (Machine.mk (.render :: below) s).move horizon = .next ⟨below, s'⟩ := by
  unfold move
  dsimp only
  rw [ha]

theorem move_stepped (below : List Frame) (ha : s.advance horizon = (s', .finished)) :
    (Machine.mk (.step :: below) s).move horizon = .next ⟨.report false :: below, s'⟩ := by
  unfold move
  dsimp only
  rw [ha]

/-! ## Other frames below -/

/-- What is under way, on top of other frames. -/
def onto (m : Machine) (below : List Frame) : Machine := ⟨m.stack ++ below, m.session⟩

/-- The frames below do not matter to a move. -/
theorem move_onto (h : m.move horizon = .next m') (below : List Frame) :
    (m.onto below).move horizon = .next (m'.onto below) := by
  cases move_next h with
  | noted hb =>
      obtain ⟨frame, rest, rfl⟩ := List.exists_cons_of_ne_nil hb
      rfl
  | moved hf ha => exact move_moved hf _ ha
  | started hf ha => exact move_started hf _ ha
  | rendered hp => exact move_rendered _ (Session.advance_complete horizon hp)
  | stepped hp => exact move_stepped _ (Session.advance_complete horizon hp)
  | ended => rfl
  | queued => rfl
  | renders => rfl
  | steps => rfl
  | performed hp =>
      unfold onto move
      dsimp only [List.cons_append]
      rw [hp]

/-- What makes a machine halt with an error goes on through the frames below. -/
theorem failed_onto {e : RenderError} (h : m.move horizon = .halt s (.failed e))
    (below : List Frame) :
    (m.onto below).move horizon = .halt s (.failed (unwind e below)) := by
  cases move_halts h with
  | refused hf ha =>
      rw [← unwind_append]
      exact move_refused hf _ ha
  | failed hp =>
      rw [← unwind_append]
      unfold onto move
      dsimp only [List.cons_append]
      rw [hp]

theorem suspended_onto (h : m.move horizon = .halt s .suspended) (below : List Frame) :
    (m.onto below).move horizon = .halt s .suspended := by
  cases move_halts h with
  | waited hf ha => exact move_waited hf _ ha
  | slept hp =>
      unfold onto move
      dsimp only [List.cons_append]
      rw [hp]

theorem Moves.onto (h : Moves horizon m m') (below : List Frame) :
    Moves horizon (m.onto below) (m'.onto below) :=
  h.lift (Machine.onto · below) fun _ _ hn => move_onto hn below

theorem run_of_moves (h : Moves horizon m m') : m.run horizon = m'.run horizon := by
  induction h with
  | refl => rfl
  | tail _ hn ih => exact ih.trans (run_next hn)

theorem run_onto_failed {e : RenderError} (h : m.run horizon = (s, .failed e))
    (below : List Frame) : (m.onto below).run horizon = (s, .failed (unwind e below)) := by
  obtain ⟨m', hm, hh⟩ := run_halts horizon m
  rw [h] at hh
  exact (run_of_moves (Moves.onto hm below)).trans (run_halt (failed_onto hh below))

theorem run_onto_suspended (h : m.run horizon = (s, .suspended)) (below : List Frame) :
    (m.onto below).run horizon = (s, .suspended) := by
  obtain ⟨m', hm, hh⟩ := run_halts horizon m
  rw [h] at hh
  exact (run_of_moves (Moves.onto hm below)).trans (run_halt (suspended_onto hh below))

end Machine

namespace Session

variable {horizon : Nat} {s s' : Session}

/-! ## A step -/

/-- What a step comes to. -/
inductive Stepped (horizon : Nat) (s : Session) : Session → Ending RenderError Bool → Prop where
  /-- The document reaches a later phase. -/
  | moved {s' : Session} (ha : s.advance horizon = (s', .moved)) :
    Stepped horizon s s' (.returned true)
  /-- A hook is run to its end. -/
  | ran {s₁ s' : Session} {label : String} {script : Script} {more : Bool}
    (ha : s.advance horizon = (s₁, .started label script))
    (hr : Machine.run horizon ⟨[.hook label script], s₁⟩ = (s', .returned more)) :
    Stepped horizon s s' (.returned true)
  /-- A hook is run and fails. -/
  | failed {s₁ s' : Session} {label : String} {script : Script} {e : RenderError}
    (ha : s.advance horizon = (s₁, .started label script))
    (hr : Machine.run horizon ⟨[.hook label script], s₁⟩ = (s', .failed e)) :
    Stepped horizon s s' (.failed e)
  /-- A hook is run and waits for too long. -/
  | slept {s₁ s' : Session} {label : String} {script : Script}
    (ha : s.advance horizon = (s₁, .started label script))
    (hr : Machine.run horizon ⟨[.hook label script], s₁⟩ = (s', .suspended)) :
    Stepped horizon s s' .suspended
  /-- The document is complete. -/
  | finished (hp : s.document.phase = .done) : Stepped horizon s s (.returned false)
  /-- The document cannot be advanced. -/
  | refused {s' : Session} {e : RenderError} (ha : s.advance horizon = (s', .failed e)) :
    Stepped horizon s s' (.failed e)
  /-- The document waits for too long. -/
  | waited {s' : Session} (ha : s.advance horizon = (s', .suspended)) :
    Stepped horizon s s' .suspended

theorem stepped_self (horizon : Nat) (s : Session) :
    Stepped horizon s (s.step horizon).1 (s.step horizon).2 := by
  have conclude {s' : Session} {ending : Ending RenderError Bool}
      (h : s.step horizon = (s', ending)) (hs : Stepped horizon s s' ending) :
      Stepped horizon s (s.step horizon).1 (s.step horizon).2 := by
    rw [h]
    exact hs
  cases ha : s.advance horizon with
  | mk s₁ a =>
      cases a with
      | moved =>
          have hm := Machine.move_moved .step [] ha
          exact conclude ((Machine.run_next hm).trans (Machine.run_halt rfl)) (.moved ha)
      | started label script =>
          have hm := Machine.run_next (Machine.move_started .step [] ha)
          cases hr : Machine.run horizon ⟨[.hook label script], s₁⟩ with
          | mk s₂ ending =>
              cases ending with
              | returned more =>
                  have hended := Machine.run_of_moves
                    (Machine.Moves.onto (Machine.hook_returned hr) [.report true])
                  exact conclude (hm.trans (hended.trans (Machine.run_halt rfl))) (.ran ha hr)
              | failed e =>
                  have hended := Machine.run_onto_failed hr [.report true]
                  exact conclude (hm.trans hended) (.failed ha hr)
              | suspended =>
                  have hended := Machine.run_onto_suspended hr [.report true]
                  exact conclude (hm.trans hended) (.slept ha hr)
      | finished =>
          have hm := Machine.run_next (Machine.move_stepped [] ha)
          obtain ⟨rfl, hp⟩ := advance_finished ha
          exact conclude (hm.trans (Machine.run_halt rfl)) (.finished hp)
      | failed e =>
          exact conclude (Machine.run_halt (Machine.move_refused .step [] ha)) (.refused ha)
      | suspended =>
          exact conclude (Machine.run_halt (Machine.move_waited .step [] ha)) (.waited ha)

theorem stepped {ending : Ending RenderError Bool} (h : s.step horizon = (s', ending)) :
    Stepped horizon s s' ending := by
  have hs := stepped_self horizon s
  rw [h] at hs
  exact hs

/-! ## A rendering repeats steps -/

/-- Whether a session comes to another by a step that answers that there are more. -/
def Steps (horizon : Nat) (s s' : Session) : Prop := s.step horizon = (s', .returned true)

/-- A rendering goes on after a step that answers that there are more, and ends as any other. -/
theorem step_cases (horizon : Nat) (s : Session) :
    (∃ s', s.Steps horizon s' ∧ TransGen (fun m m' : Machine => m.move horizon = .next m')
      ⟨[.render], s⟩ ⟨[.render], s'⟩) ∨
    (s.step horizon).2 ≠ .returned true ∧ s.render horizon = s.step horizon := by
  cases hs : s.step horizon with
  | mk s' ending =>
      cases stepped hs with
      | moved ha => exact .inl ⟨s', hs, .single (Machine.move_moved .render [] ha)⟩
      | ran ha hr =>
          exact .inl ⟨s', hs, .head' (Machine.move_started .render [] ha)
            (Machine.Moves.onto (Machine.hook_returned hr) [.render])⟩
      | failed ha hr =>
          exact .inr ⟨nofun, (Machine.run_next (Machine.move_started .render [] ha)).trans
            (Machine.run_onto_failed hr [.render])⟩
      | slept ha hr =>
          exact .inr ⟨nofun, (Machine.run_next (Machine.move_started .render [] ha)).trans
            (Machine.run_onto_suspended hr [.render])⟩
      | finished hp => exact .inr ⟨nofun, render_done hp⟩
      | refused ha => exact .inr ⟨nofun, Machine.run_halt (Machine.move_refused .render [] ha)⟩
      | waited ha => exact .inr ⟨nofun, Machine.run_halt (Machine.move_waited .render [] ha)⟩

theorem render_of_step (h : s.Steps horizon s') : s.render horizon = s'.render horizon := by
  rcases step_cases horizon s with ⟨s₁, hs, hm⟩ | ⟨hne, -⟩
  · cases hs.symm.trans h
    exact Machine.run_of_moves hm.to_reflTransGen
  · exact absurd (congrArg Prod.snd h) hne

theorem render_of_last (h : (s.step horizon).2 ≠ .returned true) :
    s.render horizon = s.step horizon := by
  rcases step_cases horizon s with ⟨s₁, hs, -⟩ | ⟨-, heq⟩
  · exact absurd (congrArg Prod.snd hs) h
  · exact heq

/-- **To render is to repeat steps** until one does not answer that there are more: what that step
leaves and answers is what the rendering leaves and answers. -/
theorem exists_last_step (horizon : Nat) (s : Session) :
    ∃ s', ReflTransGen (Steps horizon) s s' ∧ (s'.step horizon).2 ≠ .returned true ∧
      s.render horizon = s'.step horizon := by
  have hwf := (Machine.wellFounded_move horizon).transGen
  -- the induction is on the machine that renders
  suffices h : ∀ m : Machine, ∀ s, m = ⟨[.render], s⟩ → ∃ s', ReflTransGen (Steps horizon) s s' ∧
      (s'.step horizon).2 ≠ .returned true ∧ s.render horizon = s'.step horizon from h _ s rfl
  intro m
  induction m using hwf.induction with
  | h m ih =>
      rintro s rfl
      rcases step_cases horizon s with ⟨s₁, hs, hm⟩ | ⟨hne, heq⟩
      · obtain ⟨s', hsteps, hne, heq⟩ := ih _ (Relation.transGen_swap.mpr hm) s₁ rfl
        exact ⟨s', .head hs hsteps, hne, (render_of_step hs).trans heq⟩
      · exact ⟨s, .refl, hne, heq⟩

end Session

end Inlay
