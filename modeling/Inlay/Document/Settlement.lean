import Inlay.Document.Basic

set_option autoImplicit false

/-! # Settling inserts

The inserts of a document are settled one at a time. The first result that an insert is given
counts, after the filter of its fetch: its segment becomes the text, or the insert failed. A result
for an insert that is settled, or for a segment that never was one, is ignored. Once all is settled
the segments are joined to the text of the document.
-/

namespace Inlay

/-- A result for the insert of a segment. -/
structure Settlement where
  slot : Nat
  result : Delivered

namespace Document

/-- Record that an insert could not be fetched. -/
def recordFailure (d : Document) (slot : Nat) (failure : FailedInsert) : Document :=
  { d with
    segments := d.segments.set slot (.failed failure.error)
    failed := d.failed.insert slot failure }

/-- Give an insert a result. -/
def settle (d : Document) (s : Settlement) : Document :=
  match d.pending[s.slot]? with
  | none => d
  | some insert =>
    -- the filter runs once, as the insert is no longer pending after it
    let d := { d with pending := d.pending.erase s.slot }
    match filtered insert.fetch.filter s.result with
    | .ok text => { d with segments := d.segments.set s.slot (.text text) }
    | .error error => d.recordFailure s.slot ⟨insert.tag, error⟩

/-- Give up the inserts that are pending, though nothing is left that could settle them. -/
def abandonPending (d : Document) : Document :=
  d.pending.foldl (fun d slot insert =>
    d.recordFailure slot ⟨insert.tag, .abandoned insert.tag.label⟩) { d with pending := ∅ }

/-- Join the texts of some segments, the first of which has number `slot`; one that has no text is
an error. -/
def joinSegments (slot : Nat) : List Segment → Except RenderError String
  | [] => .ok ""
  | .text s :: rest => (joinSegments (slot + 1) rest).map (s ++ ·)
  | .pending :: _ => .error (.merge slot .unsettled)
  | .failed e :: _ => .error (.merge slot (.failed e))

/-- Join the segments to the text of the document. -/
def merge (d : Document) : Except RenderError Document :=
  match d.phase with
  | .fetchedAllInserts =>
    (joinSegments 0 d.segments).map fun text =>
      { d with merged := some text, phase := .segmentsMerged }
  | phase => .error (.usage (.outOfPhase .merge phase))

/-! ## What settling and merging leave alone -/

@[simp] theorem recordFailure_hookLoad (d : Document) (slot : Nat) (failure : FailedInsert) :
    (d.recordFailure slot failure).hookLoad = d.hookLoad := rfl

@[simp] theorem settle_hookLoad (d : Document) (s : Settlement) :
    (d.settle s).hookLoad = d.hookLoad := by
  unfold settle
  split
  · rfl
  · dsimp only
    split <;> rfl

@[simp] theorem settle_phase (d : Document) (s : Settlement) : (d.settle s).phase = d.phase := by
  unfold settle
  split
  · rfl
  · dsimp only
    split <;> rfl

@[simp] theorem abandonPending_hookLoad (d : Document) :
    d.abandonPending.hookLoad = d.hookLoad := by
  unfold abandonPending
  rw [Std.ExtTreeMap.foldl_eq_foldl_toList]
  generalize d.pending.toList = inserts
  suffices h : ∀ d₀ : Document, (inserts.foldl (fun d x =>
      d.recordFailure x.1 ⟨x.2.tag, .abandoned x.2.tag.label⟩) d₀).hookLoad = d₀.hookLoad from h _
  induction inserts with
  | nil => exact fun _ => rfl
  | cons x inserts ih => exact fun d₀ => ih _

theorem merge_hookLoad {d d' : Document} (h : d.merge = .ok d') : d'.hookLoad = d.hookLoad := by
  unfold merge at h
  split at h
  · cases hj : joinSegments 0 d.segments with
    | error e =>
      rw [hj] at h
      cases h
    | ok text =>
      rw [hj] at h
      rw [← Except.ok.inj h]
      rfl
  · cases h

theorem merge_rank {d d' : Document} (h : d.merge = .ok d') : d.phase.rank < d'.phase.rank := by
  unfold merge at h
  split at h
  · rename_i hp
    cases hj : joinSegments 0 d.segments with
    | error e =>
      rw [hj] at h
      cases h
    | ok text =>
      rw [hj] at h
      rw [← Except.ok.inj h, hp]
      exact (by decide : Phase.rank .fetchedAllInserts < Phase.rank .segmentsMerged)
  · cases h

end Document

end Inlay
