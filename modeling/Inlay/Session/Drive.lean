import Inlay.Session.Basic

set_option autoImplicit false

/-! # Driving a rendering

A rendering advances by steps, each of which takes the document to its next phase or runs the next
hook. A hook may itself drive the rendering. What is under way is a stack of frames with the
innermost on top, and one move of the machine is one instruction of a hook or one advance of the
document. The machine always halts: a move lowers the load of the scripts that are waiting or
running, or else takes the document to a later phase, or else lowers the weight of the stack.
-/

namespace Inlay

/-- What an advance of a document comes to. -/
inductive Advance where
  /-- The document is in a later phase. -/
  | moved
  /-- A hook is to be run. -/
  | started (label : String) (script : Script)
  /-- The rendering was complete before. -/
  | finished
  | failed (e : RenderError)
  | suspended

/-- The advance that an operation with the given ending is. -/
def Advance.ofEnding : Ending RenderError Unit → Advance
  | .returned () => .moved
  | .failed e => .failed e
  | .suspended => .suspended

namespace Session

/-- Advance the document: to its next phase or to its next hook. -/
def advance (horizon : Nat) (s : Session) : Session × Advance :=
  let reach (d : Document) : Session × Advance := ({ s with document := d }, .moved)
  let refuse (e : RenderError) : Session × Advance := (s, .failed e)
  let through (r : Session × Ending RenderError Unit) : Session × Advance := (r.1, .ofEnding r.2)
  let d := s.document
  match d.phase with
  | .init =>
    match d.filename with
    | none => refuse (.usage .noSource)
    | some path =>
      match d.loader s.outlet.disk path d.options.encoding with
      | .ok text => reach { d with source := text, phase := .readSourceFile }
      | .error e => refuse (.load e)
  | .readSourceFile => reach (d.install d.source)
  | .hasSourceText => through s.tokenize
  -- a tokenization that failed is not taken up again
  | .tokenizing => refuse (.usage (.outOfPhase .resume d.phase))
  | .tokenized => through (s.fetch horizon)
  -- the wait was given up, and nothing that was begun then is left to wait for
  | .fetchingInserts => refuse (.usage (.pendingInserts d.pending.size))
  | .fetchedAllInserts =>
    if d.failed.isEmpty then through s.merge else refuse (.failedInserts d.failed)
  | .segmentsMerged => reach { d with phase := .runningHooks }
  | .runningHooks =>
    match d.nextHook? with
    | some (label, script, d) => ({ s with document := d }, .started label script)
    | none => reach { d with phase := .done }
  | .done => (s, .finished)

theorem ofEnding_moved {ending : Ending RenderError Unit}
    (h : Advance.ofEnding ending = .moved) : ending = .returned () := by
  cases ending with
  | returned => rfl
  | failed e => cases h
  | suspended => cases h

theorem advance_moved {horizon : Nat} {s s' : Session}
    (h : s.advance horizon = (s', .moved)) :
    s'.document.hookLoad = s.document.hookLoad ∧
      s.document.phase.rank < s'.document.phase.rank := by
  unfold advance at h
  dsimp only at h
  split at h
  · rename_i hp
    split at h
    · cases h
    · split at h
      · rw [← (Prod.mk.inj h).1, hp]
        exact ⟨rfl, Nat.lt_succ_self _⟩
      · cases h
  · rename_i hp
    rw [← (Prod.mk.inj h).1, hp]
    dsimp only
    rw [Document.install_phase]
    exact ⟨Document.install_hookLoad _ _, Nat.lt_succ_self _⟩
  · obtain ⟨rfl, he⟩ := Prod.mk.inj h
    exact ⟨tokenize_hookLoad s, tokenize_rank (ofEnding_moved he)⟩
  · cases h
  · obtain ⟨rfl, he⟩ := Prod.mk.inj h
    exact ⟨fetch_hookLoad horizon s, fetch_rank (ofEnding_moved he)⟩
  · cases h
  · split at h
    · obtain ⟨rfl, he⟩ := Prod.mk.inj h
      exact ⟨merge_hookLoad s, merge_rank (ofEnding_moved he)⟩
    · cases h
  · rename_i hp
    rw [← (Prod.mk.inj h).1, hp]
    exact ⟨rfl, Nat.lt_succ_self _⟩
  · rename_i hp
    split at h
    · cases h
    · rw [← (Prod.mk.inj h).1, hp]
      exact ⟨rfl, Nat.lt_succ_self _⟩
  · cases h

theorem ofEnding_ne_started {ending : Ending RenderError Unit} {label : String} {script : Script} :
    Advance.ofEnding ending ≠ .started label script := by
  cases ending <;> simp [Advance.ofEnding]

theorem advance_started {horizon : Nat} {s s' : Session} {label : String} {script : Script}
    (h : s.advance horizon = (s', .started label script)) :
    s.document.phase = .runningHooks ∧
      s.document.nextHook? = some (label, script, s'.document) := by
  unfold advance at h
  dsimp only at h
  split at h
  · split at h
    · cases h
    · split at h <;> cases h
  · cases h
  · exact absurd (Prod.mk.inj h).2 ofEnding_ne_started
  · cases h
  · exact absurd (Prod.mk.inj h).2 ofEnding_ne_started
  · cases h
  · split at h
    · exact absurd (Prod.mk.inj h).2 ofEnding_ne_started
    · cases h
  · cases h
  · rename_i hp
    split at h
    · rename_i hn
      simp only [Prod.mk.injEq, Advance.started.injEq] at h
      obtain ⟨rfl, rfl, rfl⟩ := h
      exact ⟨hp, hn⟩
    · cases h
  · cases h

theorem ofEnding_ne_finished {ending : Ending RenderError Unit} :
    Advance.ofEnding ending ≠ .finished := by
  cases ending <;> simp [Advance.ofEnding]

theorem advance_finished {horizon : Nat} {s s' : Session}
    (h : s.advance horizon = (s', .finished)) : s' = s ∧ s.document.phase = .done := by
  unfold advance at h
  dsimp only at h
  split at h
  · split at h
    · cases h
    · split at h <;> cases h
  · cases h
  · exact absurd (Prod.mk.inj h).2 ofEnding_ne_finished
  · cases h
  · exact absurd (Prod.mk.inj h).2 ofEnding_ne_finished
  · cases h
  · split at h
    · exact absurd (Prod.mk.inj h).2 ofEnding_ne_finished
    · cases h
  · cases h
  · split at h <;> cases h
  · rename_i hp
    exact ⟨(Prod.mk.inj h).1.symm, hp⟩

end Session

/-- Something that is under way. -/
inductive Frame where
  /-- A rendering. -/
  | render
  /-- A single step. -/
  | step
  /-- The answer of a step: whether there are more. -/
  | report (more : Bool)
  /-- A hook, with the instructions that are left of it. -/
  | hook (label : String) (rest : Script)

/-- What is under way in a session, innermost first. -/
structure Machine where
  stack : List Frame
  session : Session

/-- A move of a machine. -/
inductive Move where
  | next (m : Machine)
  | halt (s : Session) (ending : Ending RenderError Bool)

/-- The error that comes out of a stack when one is raised on top of it: every hook on the way
fails by the message of the error. -/
def unwind (e : RenderError) : List Frame → RenderError
  | [] => e
  | .hook label _ :: below => unwind (.hook label e.message) below
  | _ :: below => unwind e below

namespace Machine

/-- Make a move. With nothing under way the rendering is complete. -/
def move (horizon : Nat) (m : Machine) : Move :=
  let s := m.session
  match m.stack with
  | [] => .halt s (.returned false)
  -- only the outermost step answers the host; those of hooks leave notes
  | [.report more] => .halt s (.returned more)
  | .report more :: below => .next ⟨below, s.note (.more more)⟩
  | .render :: below =>
    match s.advance horizon with
    | (s, .moved) => .next ⟨.render :: below, s⟩
    | (s, .started label script) => .next ⟨.hook label script :: .render :: below, s⟩
    | (s, .finished) => .next ⟨below, s⟩
    | (s, .failed e) => .halt s (.failed (unwind e below))
    | (s, .suspended) => .halt s .suspended
  | .step :: below =>
    match s.advance horizon with
    | (s, .moved) => .next ⟨.report true :: below, s⟩
    | (s, .started label script) => .next ⟨.hook label script :: .report true :: below, s⟩
    | (s, .finished) => .next ⟨.report false :: below, s⟩
    | (s, .failed e) => .halt s (.failed (unwind e below))
    | (s, .suspended) => .halt s .suspended
  | .hook _ [] :: below => .next ⟨below, s⟩
  | .hook label (.enqueue queue script :: rest) :: below =>
    .next ⟨.hook label rest :: below, { s with document := s.document.enqueue queue script }⟩
  | .hook label (.render :: rest) :: below => .next ⟨.render :: .hook label rest :: below, s⟩
  | .hook label (.step :: rest) :: below => .next ⟨.step :: .hook label rest :: below, s⟩
  | .hook label (.act action :: rest) :: below =>
    match s.perform horizon action with
    | (s, .returned ()) => .next ⟨.hook label rest :: below, s⟩
    | (s, .failed reason) => .halt s (.failed (unwind (.hook label reason) below))
    | (s, .suspended) => .halt s .suspended

/-! ## Every machine halts -/

/-- The load of the instructions left of a frame. -/
def frameLoad : Frame → Nat
  | .hook _ rest => scriptLoad rest
  | _ => 0

@[simp] theorem frameLoad_hook (label : String) (rest : Script) :
    frameLoad (.hook label rest) = scriptLoad rest := rfl

/-- The weight of a frame: a step becomes a report. -/
def frameWeight : Frame → Nat
  | .step => 2
  | _ => 1

/-- The load of the instructions left of a stack. -/
def stackLoad : List Frame → Nat
  | [] => 0
  | frame :: below => frameLoad frame + stackLoad below

/-- The load of all scripts that wait or run. -/
def load (m : Machine) : Nat := m.session.document.hookLoad + stackLoad m.stack

/-- The number of phases that the document has before it. -/
def phasesLeft (m : Machine) : Nat := 9 - m.session.document.phase.rank

/-- The weight of a stack. -/
def stackWeight : List Frame → Nat
  | [] => 0
  | frame :: below => frameWeight frame + stackWeight below

/-- The weight of what is under way. -/
def weight (m : Machine) : Nat := stackWeight m.stack

/-- Whether one machine is nearer to halting than another. -/
def Nearer (m m' : Machine) : Prop :=
  m.load < m'.load ∨ m.load = m'.load ∧
    (m.phasesLeft < m'.phasesLeft ∨ m.phasesLeft = m'.phasesLeft ∧ m.weight < m'.weight)

theorem nearer_of_load {m m' : Machine} (h : m.load < m'.load) : Nearer m m' := .inl h

theorem nearer_of_rank {m m' : Machine} (hl : m.load = m'.load)
    (h : m'.session.document.phase.rank < m.session.document.phase.rank) : Nearer m m' := by
  have h₁ := m.session.document.phase.rank_le
  refine .inr ⟨hl, .inl ?_⟩
  unfold phasesLeft
  omega

theorem nearer_of_weight {m m' : Machine} (hl : m.load = m'.load)
    (hp : m.session.document.phase = m'.session.document.phase) (h : m.weight < m'.weight) :
    Nearer m m' := .inr ⟨hl, .inr ⟨by rw [phasesLeft, phasesLeft, hp], h⟩⟩

theorem nearer_of_moved {horizon : Nat} {s s' : Session} {frame frame' : Frame}
    {below : List Frame} (h : s.advance horizon = (s', .moved)) (hf : frameLoad frame = 0)
    (hf' : frameLoad frame' = 0) : Nearer ⟨frame' :: below, s'⟩ ⟨frame :: below, s⟩ := by
  have ha := Session.advance_moved h
  exact nearer_of_rank (by simp [load, stackLoad, ha.1, hf, hf']) ha.2

theorem nearer_of_started {horizon : Nat} {s s' : Session} {label : String} {script : Script}
    {frame frame' : Frame} {below : List Frame}
    (h : s.advance horizon = (s', .started label script)) (hf : frameLoad frame = 0)
    (hf' : frameLoad frame' = 0) :
    Nearer ⟨.hook label script :: frame' :: below, s'⟩ ⟨frame :: below, s⟩ := by
  have ha := Document.nextHook?_load (Session.advance_started h).2
  apply nearer_of_load
  simp only [load, stackLoad, hf, hf', frameLoad_hook]
  omega

theorem move_nearer {horizon : Nat} {m m' : Machine} (h : m.move horizon = .next m') :
    Nearer m' m := by
  obtain ⟨stack, s⟩ := m
  unfold move at h
  dsimp only at h
  split at h
  · cases h
  · cases h
  · rw [← Move.next.inj h]
    exact nearer_of_weight (by simp [load, stackLoad, frameLoad, Session.note]) rfl
      (by simp [weight, stackWeight, frameWeight])
  · split at h
    · rename_i ha
      rw [← Move.next.inj h]
      exact nearer_of_moved ha rfl rfl
    · rename_i ha
      rw [← Move.next.inj h]
      exact nearer_of_started ha rfl rfl
    · rename_i ha
      rw [← Move.next.inj h, (Session.advance_finished ha).1]
      exact nearer_of_weight (by simp [load, stackLoad, frameLoad]) rfl
        (by simp [weight, stackWeight, frameWeight])
    · cases h
    · cases h
  · split at h
    · rename_i ha
      rw [← Move.next.inj h]
      exact nearer_of_moved ha rfl rfl
    · rename_i ha
      rw [← Move.next.inj h]
      exact nearer_of_started ha rfl rfl
    · rename_i ha
      rw [← Move.next.inj h, (Session.advance_finished ha).1]
      exact nearer_of_weight (by simp [load, stackLoad, frameLoad]) rfl
        (by simp [weight, stackWeight, frameWeight])
    · cases h
    · cases h
  · rw [← Move.next.inj h]
    exact nearer_of_weight (by simp [load, stackLoad, frameLoad, scriptLoad]) rfl
      (by simp [weight, stackWeight, frameWeight])
  · rw [← Move.next.inj h]
    apply nearer_of_load
    simp only [load, stackLoad, frameLoad, scriptLoad, Instruction.load,
      Document.enqueue_hookLoad]
    omega
  · rw [← Move.next.inj h]
    apply nearer_of_load
    simp only [load, stackLoad, frameLoad, scriptLoad, Instruction.load]
    omega
  · rw [← Move.next.inj h]
    apply nearer_of_load
    simp only [load, stackLoad, frameLoad, scriptLoad, Instruction.load]
    omega
  · rename_i label action rest below
    have hl := Session.perform_hookLoad horizon action s
    split at h
    · rename_i s' hp
      rw [hp] at hl
      rw [← Move.next.inj h]
      apply nearer_of_load
      simp only [load, stackLoad, frameLoad, scriptLoad, Instruction.load]
      dsimp only at hl
      omega
    · cases h
    · cases h

/-- Let a machine run until it halts: the session that it leaves and how it ended. -/
def run (horizon : Nat) (m : Machine) : Session × Ending RenderError Bool :=
  match _h : m.move horizon with
  | .next m' => run horizon m'
  | .halt s ending => (s, ending)
termination_by (m.load, m.phasesLeft, m.weight)
decreasing_by
  rcases move_nearer _h with h | ⟨h, h' | ⟨h', h''⟩⟩
  · exact Prod.Lex.left _ _ h
  · rw [h]
    exact Prod.Lex.right _ (Prod.Lex.left _ _ h')
  · rw [h, h']
    exact Prod.Lex.right _ (Prod.Lex.right _ h'')

end Machine

namespace Session

/-- Drive the rendering to its end. -/
def render (horizon : Nat) (s : Session) : Session × Ending RenderError Bool :=
  Machine.run horizon ⟨[.render], s⟩

/-- Drive the rendering by one step, a hook being one step. The answer tells whether there was
anything left to do. -/
def step (horizon : Nat) (s : Session) : Session × Ending RenderError Bool :=
  Machine.run horizon ⟨[.step], s⟩

end Session

end Inlay
