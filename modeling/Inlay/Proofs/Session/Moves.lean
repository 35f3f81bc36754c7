import Inlay.Proofs.Session.Change

set_option autoImplicit false

/-! # Moves of a machine

`Next` has a constructor for each move by which a machine goes on, `Halts` one for each way in which
it halts. `move_next` and `move_halts` say that there are no others. A run is a chain of moves with
one that halts at its end (`run_halts`), so that what moves preserve holds at the end of a run.
-/

namespace Inlay

open Relation (ReflTransGen)
open Document (Change)

/-- Whether a frame advances the document, and what is left of it when something was done. -/
inductive Frame.Drives : Frame → Frame → Prop where
  | render : Drives .render .render
  | step : Drives .step (.report true)

namespace Machine

/-- A move by which a machine goes on. -/
inductive Next (horizon : Nat) : Machine → Machine → Prop where
  /-- The step of a hook leaves its answer as a note. -/
  | noted {more : Bool} {below : List Frame} {s : Session} (hb : below ≠ []) :
    Next horizon ⟨.report more :: below, s⟩ ⟨below, s.note (.more more)⟩
  /-- The document reaches a later phase. -/
  | moved {frame after : Frame} {below : List Frame} {s s' : Session} (hf : frame.Drives after)
    (ha : s.advance horizon = (s', .moved)) :
    Next horizon ⟨frame :: below, s⟩ ⟨after :: below, s'⟩
  /-- A hook is started. -/
  | started {frame after : Frame} {below : List Frame} {s s' : Session} {label : String}
    {script : Script} (hf : frame.Drives after)
    (ha : s.advance horizon = (s', .started label script)) :
    Next horizon ⟨frame :: below, s⟩ ⟨.hook label script :: after :: below, s'⟩
  /-- A rendering finds the document complete. -/
  | rendered {below : List Frame} {s : Session} (hp : s.document.phase = .done) :
    Next horizon ⟨.render :: below, s⟩ ⟨below, s⟩
  /-- A step finds the document complete. -/
  | stepped {below : List Frame} {s : Session} (hp : s.document.phase = .done) :
    Next horizon ⟨.step :: below, s⟩ ⟨.report false :: below, s⟩
  /-- A hook ends. -/
  | ended {label : String} {below : List Frame} {s : Session} :
    Next horizon ⟨.hook label [] :: below, s⟩ ⟨below, s⟩
  /-- A hook queues another. -/
  | queued {label : String} {queue : Queue} {script rest : Script} {below : List Frame}
    {s : Session} :
    Next horizon ⟨.hook label (.enqueue queue script :: rest) :: below, s⟩
      ⟨.hook label rest :: below, { s with document := s.document.enqueue queue script }⟩
  /-- A hook drives the rendering. -/
  | renders {label : String} {rest : Script} {below : List Frame} {s : Session} :
    Next horizon ⟨.hook label (.render :: rest) :: below, s⟩
      ⟨.render :: .hook label rest :: below, s⟩
  /-- A hook drives the rendering by one step. -/
  | steps {label : String} {rest : Script} {below : List Frame} {s : Session} :
    Next horizon ⟨.hook label (.step :: rest) :: below, s⟩ ⟨.step :: .hook label rest :: below, s⟩
  /-- A hook performs an action. -/
  | performed {label : String} {action : Action} {rest : Script} {below : List Frame}
    {s s' : Session} (hp : s.perform horizon action = (s', .returned ())) :
    Next horizon ⟨.hook label (.act action :: rest) :: below, s⟩ ⟨.hook label rest :: below, s'⟩

/-- How a machine halts. -/
inductive Halts (horizon : Nat) : Machine → Session → Ending RenderError Bool → Prop where
  | idle {s : Session} : Halts horizon ⟨[], s⟩ s (.returned false)
  | answered {more : Bool} {s : Session} : Halts horizon ⟨[.report more], s⟩ s (.returned more)
  /-- The document cannot be advanced. -/
  | refused {frame after : Frame} {below : List Frame} {s s' : Session} {e : RenderError}
    (hf : frame.Drives after) (ha : s.advance horizon = (s', .failed e)) :
    Halts horizon ⟨frame :: below, s⟩ s' (.failed (unwind e below))
  /-- The document waits for too long. -/
  | waited {frame after : Frame} {below : List Frame} {s s' : Session} (hf : frame.Drives after)
    (ha : s.advance horizon = (s', .suspended)) :
    Halts horizon ⟨frame :: below, s⟩ s' .suspended
  /-- A hook fails. -/
  | failed {label : String} {action : Action} {rest : Script} {below : List Frame}
    {s s' : Session} {reason : String} (hp : s.perform horizon action = (s', .failed reason)) :
    Halts horizon ⟨.hook label (.act action :: rest) :: below, s⟩ s'
      (.failed (unwind (.hook label reason) below))
  /-- A hook waits for too long. -/
  | slept {label : String} {action : Action} {rest : Script} {below : List Frame}
    {s s' : Session} (hp : s.perform horizon action = (s', .suspended)) :
    Halts horizon ⟨.hook label (.act action :: rest) :: below, s⟩ s' .suspended

variable {horizon : Nat} {m m' : Machine}

theorem move_next (h : m.move horizon = .next m') : Next horizon m m' := by
  obtain ⟨stack, s⟩ := m
  unfold move at h
  dsimp only at h
  split at h
  · cases h
  · cases h
  · rename_i hb
    cases h
    exact .noted fun he => hb (by rw [he])
  · split at h
    · rename_i ha
      cases h
      exact .moved .render ha
    · rename_i ha
      cases h
      exact .started .render ha
    · rename_i ha
      cases h
      obtain ⟨rfl, hp⟩ := Session.advance_finished ha
      exact .rendered hp
    · cases h
    · cases h
  · split at h
    · rename_i ha
      cases h
      exact .moved .step ha
    · rename_i ha
      cases h
      exact .started .step ha
    · rename_i ha
      cases h
      obtain ⟨rfl, hp⟩ := Session.advance_finished ha
      exact .stepped hp
    · cases h
    · cases h
  · cases h
    exact .ended
  · cases h
    exact .queued
  · cases h
    exact .renders
  · cases h
    exact .steps
  · split at h
    · rename_i hp
      cases h
      exact .performed hp
    · cases h
    · cases h

theorem move_halts {s : Session} {ending : Ending RenderError Bool}
    (h : m.move horizon = .halt s ending) : Halts horizon m s ending := by
  obtain ⟨stack, s⟩ := m
  unfold move at h
  dsimp only at h
  split at h
  · cases h
    exact .idle
  · cases h
    exact .answered
  · cases h
  · split at h
    · cases h
    · cases h
    · cases h
    · rename_i ha
      cases h
      exact .refused .render ha
    · rename_i ha
      cases h
      exact .waited .render ha
  · split at h
    · cases h
    · cases h
    · cases h
    · rename_i ha
      cases h
      exact .refused .step ha
    · rename_i ha
      cases h
      exact .waited .step ha
  · cases h
  · cases h
  · cases h
  · cases h
  · split at h
    · cases h
    · rename_i hp
      cases h
      exact .failed hp
    · rename_i hp
      cases h
      exact .slept hp

/-! ## What moves change -/

theorem Next.changes (h : Next horizon m m') :
    ReflTransGen Change m.session.document m'.session.document := by
  cases h with
  | noted hb => exact .refl
  | moved hf ha => exact Session.changes_of_advance ha
  | started hf ha => exact Session.changes_of_advance ha
  | rendered hp => exact .refl
  | stepped hp => exact .refl
  | ended => exact .refl
  | queued => exact .single (.enqueue _ _)
  | renders => exact .refl
  | steps => exact .refl
  | performed hp => exact Session.changes_of_acts (Session.acts_of_perform hp)

theorem Halts.changes {s : Session} {ending : Ending RenderError Bool}
    (h : Halts horizon m s ending) :
    ReflTransGen Change m.session.document s.document := by
  cases h with
  | idle => exact .refl
  | answered => exact .refl
  | refused hf ha => exact Session.changes_of_advance ha
  | waited hf ha => exact Session.changes_of_advance ha
  | failed hp => exact Session.changes_of_acts (Session.acts_of_perform hp)
  | slept hp => exact Session.changes_of_acts (Session.acts_of_perform hp)

/-! ## Runs -/

theorem run_next (h : m.move horizon = .next m') : m.run horizon = m'.run horizon := by
  rw [run]
  split
  · rename_i h'
    cases h.symm.trans h'
    rfl
  · rename_i h'
    cases h.symm.trans h'

theorem run_halt {s : Session} {ending : Ending RenderError Bool}
    (h : m.move horizon = .halt s ending) : m.run horizon = (s, ending) := by
  rw [run]
  split
  · rename_i h'
    cases h.symm.trans h'
  · rename_i h'
    cases h.symm.trans h'
    rfl

/-- Whether a machine comes to another by some moves. -/
abbrev Moves (horizon : Nat) : Machine → Machine → Prop :=
  ReflTransGen fun m m' => m.move horizon = .next m'

/-- A run is a chain of moves, the last of which halts. -/
theorem run_halts (horizon : Nat) (m : Machine) :
    ∃ m', Moves horizon m m' ∧
      m'.move horizon = .halt (m.run horizon).1 (m.run horizon).2 := by
  fun_induction run horizon m with
  | case1 m m' h ih =>
      obtain ⟨m'', hm, hh⟩ := ih
      exact ⟨m'', .head h hm, hh⟩
  | case2 m s ending h => exact ⟨m, .refl, h⟩

end Machine

end Inlay
