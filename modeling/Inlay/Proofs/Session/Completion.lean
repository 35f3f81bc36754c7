import Inlay.Proofs.Session.Passage

set_option autoImplicit false

/-! # Renderings without hooks

How a rendering ends depends on where it gets to. An advance that fails is its end
(`render_of_failed`), and so a source that cannot be split leaves the document between two phases
for good (`render_misread`). Where splitting and fetching succeed and every segment is a text, the
texts are joined, and if no hook is waiting nothing changes them any more (`render_texts`).
-/

namespace Inlay.Session

variable {horizon : Nat} {s s' s₁ s₂ : Session}

theorem render_of_failed {e : RenderError} (h : s.advance horizon = (s', .failed e)) :
    s.render horizon = (s', .failed e) := by
  apply Machine.run_halt
  unfold Machine.move
  dsimp only
  rw [h]
  rfl

/-! ## The source is split -/

theorem tokenize_of_scan {scan : Scan} (hp : s.document.phase = .hasSourceText)
    (hs : s.document.scan = (scan, .ok ())) :
    s.tokenize = ({ s with
      document := { s.document with
        phase := .tokenized, segments := scan.segments, pending := scan.pending }
      notes := s.notes ++ scan.notes.map .text }, .returned ()) := by
  unfold tokenize Document.tokenize
  rw [hp]
  dsimp only
  rw [hs]
  rfl

/-- A scan that fails ends the rendering. -/
theorem render_misread {scan : Scan} {e : TagError} (hp : s.document.phase = .hasSourceText)
    (hs : s.document.scan = (scan, .error e)) :
    s.render horizon = ({ s with
      document := { s.document with phase := .tokenizing }
      notes := s.notes ++ scan.notes.map .text }, .failed (.tag e)) := by
  apply render_of_failed
  unfold advance
  dsimp only
  rw [hp]
  dsimp only
  unfold tokenize Document.tokenize
  rw [hp]
  dsimp only
  rw [hs]
  rfl

/-! ## The inserts are fetched -/

/-- With no insert pending there is nothing to wait for. -/
theorem fetch_of_empty (hp : s.document.phase = .tokenized) (hi : s.document.pending = ∅)
    (hf : s.document.failed = ∅) :
    s.fetch horizon = ({ s with document := { s.document with phase := .fetchedAllInserts } },
      .returned ()) := by
  have hover : (s.document.beginFetch s.outlet.disk).move (horizon - s.now) = .over .settled := by
    unfold Fetching.move
    rw [if_pos]
    exact Std.ExtTreeMap.isEmpty_iff.mpr hi
  have hfetch : s.document.fetch s.outlet.disk (horizon - s.now) =
      ({ s.document with phase := .fetchedAllInserts }, [], .settled 0) := by
    unfold Document.fetch
    rw [hp]
    dsimp only
    rw [Fetching.run_over hover]
    show (_, _, ((s.document.beginFetch s.outlet.disk).document.closeFetch 0).2) = _
    have hclosed : ((s.document.beginFetch s.outlet.disk).document.closeFetch 0).2 = .settled 0 :=
      Document.closeFetch_settled hf 0
    rw [hclosed]
    rfl
  unfold fetch
  rw [hfetch]
  simp

/-! ## The segments are joined -/

/-- **Texts are joined, and the rendering is done**, if no hook is waiting. -/
theorem render_texts {texts : List String} (ht : s.tokenize = (s₁, .returned ()))
    (hf : s₁.fetch horizon = (s₂, .returned ()))
    (hs : s₂.document.segments = texts.map .text) (hw : s₂.document.waiting = []) :
    s.render horizon = ({ s₂ with document := { s₂.document with
      merged := some (String.join texts), phase := .done } }, .returned false) := by
  obtain ⟨-, ss, -, hfailed, hd⟩ := fetch_returned hf
  have hp : s₂.document.phase = .fetchedAllInserts := by rw [hd]
  have hfailed₂ : s₂.document.failed = ∅ := by
    rw [hd]
    exact hfailed
  have hmerge : s₂.merge = ({ s₂ with document := { s₂.document with
      merged := some (String.join texts), phase := .segmentsMerged } }, .returned ()) := by
    unfold merge Document.merge
    rw [hp]
    dsimp only
    rw [hs, Document.joinSegments_texts]
    rfl
  calc s.render horizon = s₁.render horizon := render_of_moved (advance_tokenize ht)
    _ = s₂.render horizon := render_of_moved (advance_fetch hf)
    _ = _ := render_of_moved (advance_merge hp hfailed₂ hmerge)
    _ = _ := render_of_moved (advance_release rfl)
    _ = _ := render_of_moved (advance_done rfl hw)
    _ = _ := render_done rfl

/-- A source that comes to texts alone is rendered without a wait. -/
theorem render_scan {scan : Scan} {texts : List String} (hp : s.document.phase = .hasSourceText)
    (hf : s.document.failed = ∅) (hw : s.document.waiting = [])
    (hs : s.document.scan = (scan, .ok ())) (hi : scan.pending = ∅)
    (ht : scan.segments = texts.map .text) :
    s.render horizon = ({ s with
      document := { s.document with
        segments := scan.segments, pending := scan.pending
        merged := some (String.join texts), phase := .done }
      notes := s.notes ++ scan.notes.map .text }, .returned false) := by
  let d : Document := { s.document with
    phase := .tokenized, segments := scan.segments, pending := scan.pending }
  let s₁ : Session := { s with document := d, notes := s.notes ++ scan.notes.map .text }
  have hf₁ : s₁.fetch horizon =
      ({ s₁ with document := { d with phase := .fetchedAllInserts } }, .returned ()) :=
    fetch_of_empty rfl hi hf
  exact render_texts (tokenize_of_scan hp hs) hf₁ ht hw

end Inlay.Session
