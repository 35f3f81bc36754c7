import Inlay.Document.Fetching
import Inlay.Document.Tokenization

set_option autoImplicit false

/-! # Sessions

A session holds a document together with all that its operations reach: the disk and the printed
output, the clock, the notes left by handlers and hooks, and the handles on inserts that the host
was given. The clock stands still but for waiting, when it moves to the time waited for. An
operation that would wait beyond a horizon is given up there.
-/

namespace Inlay

/-- How an operation ended. -/
inductive Ending (ε α : Type) where
  | returned (a : α)
  | failed (e : ε)
  /-- It was given up while it waited. -/
  | suspended
  deriving DecidableEq, Repr

namespace Ending

/-- The ending with another error. -/
def mapError {ε ε' α : Type} (f : ε → ε') : Ending ε α → Ending ε' α
  | .returned a => .returned a
  | .failed e => .failed (f e)
  | .suspended => .suspended

/-- The ending of an operation that does not wait. -/
def ofExcept {ε α : Type} : Except ε α → Ending ε α
  | .ok a => .returned a
  | .error e => .failed e

end Ending

/-- What a handler or a hook leaves for the host. -/
inductive Note where
  | text (s : String)
  | state (phase : Phase) (queued : Nat)
  | more (more : Bool)
  deriving DecidableEq, Repr

/-- The handle on an insert that the host was given to deliver the result. -/
structure Handle where
  slot : Nat
  used : Bool := false
  deriving DecidableEq, Repr

/-- A document and its surroundings. -/
structure Session where
  document : Document := {}
  outlet : Outlet := {}
  notes : List Note := []
  handles : List Handle := []
  now : Nat := 0

namespace Session

/-- Leave a note. -/
def note (s : Session) (n : Note) : Session := { s with notes := s.notes ++ [n] }

/-- Replace the document by the result of an operation on it; an error leaves it as it was. -/
def update {ε : Type} (s : Session) (result : Except ε Document) : Session × Ending ε Unit :=
  match result with
  | .ok d => ({ s with document := d }, .returned ())
  | .error e => (s, .failed e)

/-- Split the source into segments. -/
def tokenize (s : Session) : Session × Ending RenderError Unit :=
  let (document, notes, result) := s.document.tokenize
  ({ s with document, notes := s.notes ++ notes.map .text }, .ofExcept result)

/-- Fetch the pending inserts. -/
def fetch (horizon : Nat) (s : Session) : Session × Ending RenderError Unit :=
  -- a fetch counts its time from its own start
  let (document, handles, fetched) := s.document.fetch s.outlet.disk (horizon - s.now)
  let s := { s with document, handles := s.handles ++ handles.map (Handle.mk · false) }
  match fetched with
  | .settled time => ({ s with now := s.now + time }, .returned ())
  | .failed time e => ({ s with now := s.now + time }, .failed e)
  | .suspended => ({ s with now := max s.now horizon }, .suspended)

/-- Join the segments. -/
def merge (s : Session) : Session × Ending RenderError Unit := s.update s.document.merge

/-- Write the text to a path. -/
def save (s : Session) (path : Path) : Session × Ending RenderError Unit :=
  match s.document.text with
  | .error e => (s, .failed (.usage e))
  | .ok text =>
    match s.outlet.write path text s.document.options.encoding with
    | .ok outlet => ({ s with outlet }, .returned ())
    | .error e => (s, .failed (.write e))

/-- Let time pass. -/
def sleep (horizon duration : Nat) (s : Session) : Session × Ending RenderError Unit :=
  if horizon < s.now + duration then ({ s with now := max s.now horizon }, .suspended)
  else ({ s with now := s.now + duration }, .returned ())

/-- Deliver a result through a handle that the host was given. The number is that of the insert,
if the handle exists and was not used before. The wait for the insert is over by then, so that the
result itself reaches nobody. -/
def deliver (s : Session) (n : Nat) (_result : Delivered) : Session × Option Nat :=
  match s.handles[n]? with
  | some ⟨slot, false⟩ => ({ s with handles := s.handles.set n ⟨slot, true⟩ }, some slot)
  | _ => (s, none)

/-- Run one action of a hook. An error is told by its message. -/
def perform (horizon : Nat) (action : Action) (s : Session) : Session × Ending String Unit :=
  let told (r : Session × Ending RenderError Unit) : Session × Ending String Unit :=
    (r.1, r.2.mapError RenderError.message)
  let usage (r : Except UsageError Document) : Session × Ending String Unit :=
    told (s.update (r.mapError .usage))
  match action with
  | .note text => (s.note (.text text), .returned ())
  | .noteText =>
    match s.document.text with
    | .ok text => (s.note (.text text), .returned ())
    | .error e => (s, .failed e.message)
  | .noteState => (s.note (.state s.document.phase s.document.queuedHooks), .returned ())
  | .revise f => usage (s.document.reviseText f)
  | .replace text => usage (s.document.replaceText text)
  | .fail reason => (s, .failed reason)
  | .save path => told (s.save path)
  | .setSource text => usage (s.document.setSource text)
  | .tokenize => told s.tokenize
  | .fetch => told (s.fetch horizon)
  | .merge => told s.merge
  | .sleep duration => told (s.sleep horizon duration)

/-! ## Operations leave the waiting hooks alone -/

@[simp] theorem tokenize_hookLoad (s : Session) :
    s.tokenize.1.document.hookLoad = s.document.hookLoad := by simp [tokenize]

@[simp] theorem fetch_hookLoad (horizon : Nat) (s : Session) :
    (s.fetch horizon).1.document.hookLoad = s.document.hookLoad := by
  unfold fetch
  dsimp only
  split <;> simp

theorem update_hookLoad {ε : Type} {s : Session} {result : Except ε Document}
    (h : ∀ d, result = .ok d → d.hookLoad = s.document.hookLoad) :
    (s.update result).1.document.hookLoad = s.document.hookLoad := by
  cases result with
  | ok d => exact h d rfl
  | error e => rfl

@[simp] theorem merge_hookLoad (s : Session) :
    s.merge.1.document.hookLoad = s.document.hookLoad :=
  update_hookLoad fun _ => Document.merge_hookLoad

@[simp] theorem save_document (s : Session) (path : Path) :
    (s.save path).1.document = s.document := by
  unfold save
  split
  · rfl
  · split <;> rfl

@[simp] theorem sleep_document (horizon duration : Nat) (s : Session) :
    (s.sleep horizon duration).1.document = s.document := by
  unfold sleep
  split <;> rfl

theorem hookLoad_of_mapError {ε ε' : Type} {s : Session} {f : ε → ε'}
    {result : Except ε Document} (h : ∀ d, result = .ok d → d.hookLoad = s.document.hookLoad) :
    ∀ d, result.mapError f = .ok d → d.hookLoad = s.document.hookLoad := by
  intro d hd
  cases result with
  | ok d' =>
    rw [← Except.ok.inj hd]
    exact h d' rfl
  | error e => cases hd

@[simp] theorem perform_hookLoad (horizon : Nat) (action : Action) (s : Session) :
    (s.perform horizon action).1.document.hookLoad = s.document.hookLoad := by
  unfold perform
  cases action with
  | note => rfl
  | noteText =>
    dsimp only
    split <;> rfl
  | noteState => rfl
  | revise f =>
    exact update_hookLoad (hookLoad_of_mapError fun _ => Document.reviseText_hookLoad)
  | replace text =>
    exact update_hookLoad (hookLoad_of_mapError fun _ => Document.replaceText_hookLoad)
  | fail => rfl
  | save path => simp
  | setSource text =>
    exact update_hookLoad (hookLoad_of_mapError fun _ => Document.setSource_hookLoad)
  | tokenize => simp
  | fetch => simp
  | merge => simp
  | sleep duration => simp

/-! ## Operations that succeed take the document on -/

theorem tokenize_rank {s : Session} (h : s.tokenize.2 = .returned ()) :
    s.document.phase.rank < s.tokenize.1.document.phase.rank := by
  apply Document.tokenize_rank
  unfold tokenize at h
  dsimp only at h
  cases hr : s.document.tokenize.2.2 with
  | ok => rfl
  | error e =>
    rw [hr] at h
    cases h

theorem fetch_rank {horizon : Nat} {s : Session} (h : (s.fetch horizon).2 = .returned ()) :
    s.document.phase.rank < (s.fetch horizon).1.document.phase.rank := by
  unfold fetch at h ⊢
  dsimp only at h ⊢
  cases hf : (s.document.fetch s.outlet.disk (horizon - s.now)).2.2 with
  | settled time => exact Document.fetch_rank hf
  | failed time e =>
    rw [hf] at h
    cases h
  | suspended =>
    rw [hf] at h
    cases h

theorem merge_rank {s : Session} (h : s.merge.2 = .returned ()) :
    s.document.phase.rank < s.merge.1.document.phase.rank := by
  unfold merge at h ⊢
  cases hm : s.document.merge with
  | ok d => exact Document.merge_rank hm
  | error e =>
    rw [hm] at h
    cases h

end Session

end Inlay
