import Inlay.Proofs.Session.Moves

set_option autoImplicit false

/-! # What can be reached

A document is used by its host and by the hooks that run: whoever has it may call any of its
operations in any order, go on after an error, or give up what it called while that waits. A hook
is bound to its script by the moves of its machine, but here it may act beside it too, so that what
holds of all that `Event` allows holds of hooks of any kind. A state of a machine is one that a hook
may see; between two calls of the host the stack is empty.
-/

namespace Inlay

open Relation (ReflTransGen)

/-- Whether nothing was done with a document yet but to set it up and to queue hooks. -/
structure Document.Fresh (d : Document) : Prop where
  phase : d.phase = .init
  segments : d.segments = []
  pending : d.pending = ∅
  failed : d.failed = ∅
  merged : d.merged = none

namespace Machine

/-- What can happen to a session that is in use. -/
inductive Event (m : Machine) : Machine → Prop where
  /-- An operation is called, and its result is seen by who called it. -/
  | act (horizon : Nat) (action : Action) :
    Event m ⟨m.stack, (m.session.perform horizon action).1⟩
  /-- A hook is queued. -/
  | enqueue (queue : Queue) (script : Script) :
    Event m ⟨m.stack, { m.session with document := m.session.document.enqueue queue script }⟩
  /-- A rendering or a step is begun. -/
  | call {frame after : Frame} (hf : frame.Drives after) : Event m ⟨frame :: m.stack, m.session⟩
  /-- What is under way makes a move. -/
  | move {horizon : Nat} {m' : Machine} (h : m.move horizon = .next m') : Event m m'
  /-- What is under way ends, by an error perhaps, and who called it goes on. -/
  | halt {horizon : Nat} {s : Session} {ending : Ending RenderError Bool} {below : List Frame}
    (h : m.move horizon = .halt s ending) (hb : below <:+ m.stack) : Event m ⟨below, s⟩
  /-- What is under way is given up. -/
  | drop {below : List Frame} (hb : below <:+ m.stack) : Event m ⟨below, m.session⟩
  /-- The inserts are fetched, and their results come in any order. -/
  | settle (ss : List Settlement) (hp : m.session.document.phase = .tokenized)
    (hs : (m.session.document.settleAll ss).pending = ∅) :
    Event m ⟨m.stack, { m.session with
      document := { m.session.document.settleAll ss with phase := .fetchedAllInserts } }⟩
  /-- The wait for the inserts, which goes on while one is pending, is given up when some results
  have come. -/
  | forsake (ss : List Settlement) (hp : m.session.document.phase = .tokenized)
    (hs : (m.session.document.settleAll ss).pending ≠ ∅) :
    Event m ⟨m.stack, { m.session with
      document := { m.session.document.settleAll ss with phase := .fetchingInserts } }⟩
  /-- The document is set up anew. -/
  | equip (filename : Option Path) (options : Options) (registry : Registry)
    (bindings : List (String × String)) (loader : Loader) :
    Event m ⟨m.stack, { m.session with
      document := { m.session.document with filename, options, registry, bindings, loader } }⟩
  /-- Something happens around the document: files change, time passes, handles are used. -/
  | elsewhere (outlet : Outlet) (notes : List Note) (handles : List Handle) (now : Nat) :
    Event m ⟨m.stack, { m.session with outlet, notes, handles, now }⟩

/-- Whether one machine can come of another in the course of use. -/
abbrev Reaches : Machine → Machine → Prop := ReflTransGen Event

/-- Whether a machine can come of a fresh document. -/
def Reachable (m : Machine) : Prop := ∃ s : Session, s.document.Fresh ∧ Reaches ⟨[], s⟩ m

variable {m m' : Machine}

/-- All use of a session changes its document by changes. -/
theorem Event.changes (h : Event m m') :
    ReflTransGen Document.Change m.session.document m'.session.document := by
  cases h with
  | act horizon action => exact Session.changes_of_acts (m.session.perform_acts horizon action)
  | enqueue queue script => exact .single (.enqueue queue script)
  | call hf => exact .refl
  | move h => exact (move_next h).changes
  | halt h hb => exact (move_halts h).changes
  | drop hb => exact .refl
  | settle ss hp hs => exact .single (.act (.settle ss hp hs))
  | forsake ss hp hs => exact .single (.act (.forsake ss hp hs))
  | equip filename options registry bindings loader => exact .single (.equip _ _ _ _ _)
  | elsewhere outlet notes handles now => exact .refl

theorem Reaches.changes (h : Reaches m m') :
    ReflTransGen Document.Change m.session.document m'.session.document := by
  induction h with
  | refl => exact .refl
  | tail _ ht ih => exact ih.trans ht.changes

theorem Reachable.reaches (hm : Reachable m) (h : Reaches m m') : Reachable m' := by
  obtain ⟨s, hs, hr⟩ := hm
  exact ⟨s, hs, hr.trans h⟩

/-- A call that runs to its end is a use of the session. -/
theorem reaches_run (horizon : Nat) (m : Machine) : Reaches m ⟨[], (m.run horizon).1⟩ := by
  obtain ⟨m', hm, hh⟩ := run_halts horizon m
  exact .tail (ReflTransGen.mono (fun _ _ h => Event.move h) _ _ hm) (.halt hh List.nil_suffix)

end Machine

namespace Session

open Machine (Reaches)

theorem reaches_render (s : Session) (horizon : Nat) :
    Reaches ⟨[], s⟩ ⟨[], (s.render horizon).1⟩ :=
  .head (.call .render) (Machine.reaches_run horizon _)

theorem reaches_step (s : Session) (horizon : Nat) :
    Reaches ⟨[], s⟩ ⟨[], (s.step horizon).1⟩ :=
  .head (.call .step) (Machine.reaches_run horizon _)

end Session

end Inlay
