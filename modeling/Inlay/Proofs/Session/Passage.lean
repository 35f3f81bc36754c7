import Inlay.Proofs.Session.Bookkeeping

set_option autoImplicit false

/-! # The way to the merge

A rendering installs the source, splits it, fetches the inserts and joins the segments. Where
splitting and fetching succeed so does the join, and the rendering comes to the merged document with
nothing else about it changed (`exists_merge`). To render is then to go on from there
(`render_installed`).
-/

namespace Inlay

/-- The phase that a rendering comes to next. It does not stop while it splits the source or fetches
the inserts. -/
def Phase.next : Phase → Phase
  | .init => .readSourceFile
  | .readSourceFile => .hasSourceText
  | .hasSourceText | .tokenizing => .tokenized
  | .tokenized | .fetchingInserts => .fetchedAllInserts
  | .fetchedAllInserts => .segmentsMerged
  | .segmentsMerged => .runningHooks
  | .runningHooks | .done => .done

namespace Session

variable {horizon : Nat} {s s' : Session}

/-! ## How operations end -/

theorem tokenize_returned (h : s.tokenize = (s', .returned ())) :
    s.document.phase = .hasSourceText ∧
      ∃ notes, s.document.tokenize = (s'.document, notes, .ok ()) := by
  unfold tokenize at h
  rcases s.document.tokenize_cases with ⟨d', notes, hp, ht⟩ | ⟨notes, e, hp, ht⟩ | ⟨e, hp, ht⟩
  · rw [ht] at h
    cases h
    exact ⟨hp, notes, ht⟩
  · rw [ht] at h
    cases h
  · rw [ht] at h
    cases h

/-- Splitting the source fails at a tag or is refused. -/
theorem tokenize_failed {e : RenderError} (h : s.tokenize = (s', .failed e)) :
    (s.document.phase = .hasSourceText ∧ s'.document.phase = .tokenizing ∧ ∃ t, e = .tag t) ∨
      s.document.phase ≠ .hasSourceText ∧ s' = s ∧ ∃ u, e = .usage u := by
  unfold tokenize at h
  rcases s.document.tokenize_cases with ⟨d', notes, hp, ht⟩ | ⟨notes, t, hp, ht⟩ | ⟨u, hp, ht⟩
  · rw [ht] at h
    cases h
  · rw [ht] at h
    cases h
    exact .inl ⟨hp, rfl, t, rfl⟩
  · rw [ht] at h
    dsimp only at h
    rw [List.map_nil, List.append_nil] at h
    cases h
    exact .inr ⟨hp, rfl, u, rfl⟩

theorem fetch_returned (h : s.fetch horizon = (s', .returned ())) :
    s.document.phase = .tokenized ∧ ∃ ss, (s.document.settleAll ss).pending = ∅ ∧
      (s.document.settleAll ss).failed = ∅ ∧
      s'.document = { s.document.settleAll ss with phase := .fetchedAllInserts } := by
  unfold fetch at h
  rcases s.document.fetch_cases s.outlet.disk (horizon - s.now) with
    ⟨ss, handed, time, hp, hs, hf⟩ | ⟨ss, handed, hp, hs, hf⟩ | ⟨-, hf⟩
  · rw [hf] at h
    unfold Document.closeFetch at h
    dsimp only at h
    by_cases he : (s.document.settleAll ss).failed.isEmpty
    · rw [if_pos he] at h
      cases h
      exact ⟨hp, ss, hs, Std.ExtTreeMap.isEmpty_iff.mp he, rfl⟩
    · rw [if_neg he] at h
      cases h
  · rw [hf] at h
    cases h
  · rw [hf] at h
    cases h

/-- Fetching the inserts fails when all are settled and some have failed, or is refused. -/
theorem fetch_failed {e : RenderError} (h : s.fetch horizon = (s', .failed e)) :
    (s.document.phase = .tokenized ∧ s'.document.phase = .fetchedAllInserts ∧
      s'.document.failed ≠ ∅ ∧ e = .failedInserts s'.document.failed) ∨
      s.document.phase ≠ .tokenized ∧ s' = s := by
  unfold fetch at h
  rcases s.document.fetch_cases s.outlet.disk (horizon - s.now) with
    ⟨ss, handed, time, hp, hs, hf⟩ | ⟨ss, handed, hp, hs, hf⟩ | ⟨hp, hf⟩
  · rw [hf] at h
    unfold Document.closeFetch at h
    dsimp only at h
    by_cases he : (s.document.settleAll ss).failed.isEmpty
    · rw [if_pos he] at h
      cases h
    · rw [if_neg he] at h
      cases h
      exact .inl ⟨hp, rfl, mt Std.ExtTreeMap.isEmpty_iff.mpr he, rfl⟩
  · rw [hf] at h
    cases h
  · rw [hf] at h
    dsimp only at h
    rw [List.map_nil, List.append_nil, Nat.add_zero] at h
    exact .inr ⟨hp, (Prod.mk.inj h).1.symm⟩

/-- Segments of which none is pending and none has failed can be joined. -/
theorem merge_returned (hd : s.document.Accounted) (hp : s.document.phase = .fetchedAllInserts)
    (hi : s.document.pending = ∅) (hf : s.document.failed = ∅) :
    ∃ merged, s.merge = ({ s with
      document := { s.document with merged := some merged, phase := .segmentsMerged } },
      .returned ()) := by
  have ht : ∀ segment ∈ s.document.segments, ∃ t, segment = .text t := by
    intro segment hmem
    cases segment with
    | text t => exact ⟨t, rfl⟩
    | pending => exact absurd hmem (hd.pending_not_mem hi)
    | failed e => exact absurd hmem (hd.failed_not_mem hf e)
  obtain ⟨texts, ht⟩ := Document.exists_texts ht
  refine ⟨String.join texts, ?_⟩
  unfold merge Document.merge
  rw [hp]
  dsimp only
  rw [ht, Document.joinSegments_texts]
  rfl

theorem merged_of_merge (h : s.merge = (s', .returned ())) :
    s.document.phase = .fetchedAllInserts ∧ ∃ text,
      Document.joinSegments 0 s.document.segments = .ok text ∧
      s' = { s with
        document := { s.document with merged := some text, phase := .segmentsMerged } } := by
  unfold merge at h
  cases hm : s.document.merge with
  | error e =>
      rw [hm] at h
      cases h
  | ok d =>
      obtain ⟨hp, text, hj, rfl⟩ := Document.merge_eq_ok hm
      rw [hm] at h
      cases h
      exact ⟨hp, text, hj, rfl⟩

theorem save_written {path : Path} {text : String} {outlet : Outlet}
    (ht : s.document.text = .ok text)
    (hw : s.outlet.write path text s.document.options.encoding = .ok outlet) :
    s.save path = ({ s with outlet }, .returned ()) := by
  unfold save
  rw [ht]
  dsimp only
  rw [hw]

theorem save_refused {path : Path} {text : String} {e : WriteError}
    (ht : s.document.text = .ok text)
    (hw : s.outlet.write path text s.document.options.encoding = .error e) :
    s.save path = (s, .failed (.write e)) := by
  unfold save
  rw [ht]
  dsimp only
  rw [hw]

/-! ## Advances of a rendering -/

theorem render_of_moved (h : s.advance horizon = (s', .moved)) :
    s.render horizon = s'.render horizon := by
  apply Machine.run_next
  unfold Machine.move
  dsimp only
  rw [h]

theorem advance_complete (horizon : Nat) (h : s.document.phase = .done) :
    s.advance horizon = (s, .finished) := by
  unfold advance
  dsimp only
  rw [h]

theorem render_done (h : s.document.phase = .done) : s.render horizon = (s, .returned false) := by
  have hm : (Machine.mk [.render] s).move horizon = .next ⟨[], s⟩ := by
    unfold Machine.move
    dsimp only
    rw [advance_complete horizon h]
  exact (Machine.run_next hm).trans (Machine.run_halt rfl)

theorem advance_tokenize (h : s.tokenize = (s', .returned ())) :
    s.advance horizon = (s', .moved) := by
  unfold advance
  dsimp only
  rw [(tokenize_returned h).1]
  dsimp only
  rw [h]
  rfl

theorem advance_fetch (h : s.fetch horizon = (s', .returned ())) :
    s.advance horizon = (s', .moved) := by
  unfold advance
  dsimp only
  rw [(fetch_returned h).1]
  dsimp only
  rw [h]
  rfl

theorem advance_merge (hp : s.document.phase = .fetchedAllInserts) (hf : s.document.failed = ∅)
    (h : s.merge = (s', .returned ())) : s.advance horizon = (s', .moved) := by
  unfold advance
  dsimp only
  rw [hp]
  dsimp only
  rw [if_pos (Std.ExtTreeMap.isEmpty_iff.mpr hf), h]
  rfl

theorem advance_release (hp : s.document.phase = .segmentsMerged) : s.advance horizon =
    ({ s with document := { s.document with phase := .runningHooks } }, .moved) := by
  unfold advance
  dsimp only
  rw [hp]

/-- When no hook is waiting the document is done. -/
theorem advance_done (hp : s.document.phase = .runningHooks) (hw : s.document.waiting = []) :
    s.advance horizon =
      ({ s with document := { s.document with phase := .done } }, .moved) := by
  unfold advance
  dsimp only
  rw [hp]
  dsimp only
  rw [Document.nextHook?_eq_none.mpr hw]

/-- An advance takes the document to the next phase. -/
theorem advance_next (h : s.advance horizon = (s', .moved)) :
    s'.document.phase = s.document.phase.next := by
  unfold advance at h
  dsimp only at h
  split at h
  · rename_i hp
    split at h
    · cases h
    · split at h
      · cases h
        rw [hp]
        rfl
      · cases h
  · rename_i hp
    cases h
    rw [hp]
    exact Document.install_phase _ _
  · rename_i hp
    obtain ⟨rfl, he⟩ := Prod.mk.inj h
    obtain ⟨-, notes, ht⟩ := tokenize_returned (Prod.ext rfl (ofEnding_moved he))
    obtain ⟨_, _, _, hd⟩ := Document.tokenize_eq_ok ht
    rw [hd, hp]
    rfl
  · cases h
  · rename_i hp
    obtain ⟨rfl, he⟩ := Prod.mk.inj h
    obtain ⟨-, _, _, _, hd⟩ := fetch_returned (Prod.ext rfl (ofEnding_moved he))
    rw [hd, hp]
    rfl
  · cases h
  · rename_i hp
    split at h
    · obtain ⟨rfl, he⟩ := Prod.mk.inj h
      have hm : s.merge = (s.merge.1, .returned ()) := Prod.ext rfl (ofEnding_moved he)
      obtain ⟨-, _, -, hs⟩ := merged_of_merge hm
      rw [hs, hp]
      rfl
    · cases h
  · rename_i hp
    cases h
    rw [hp]
    rfl
  · rename_i hp
    split at h
    · cases h
    · cases h
      rw [hp]
      rfl
  · cases h

/-! ## From the source to the merge -/

/-- Whether a rendering starts from a text: it was installed, or it is what the loader gives. -/
def Sourced (s : Session) (d : Document) (text : String) : Prop :=
  s.document = d.install text ∨ s.document = d ∧ ∃ path, d.filename = some path ∧
    d.loader s.outlet.disk path d.options.encoding = .ok text

theorem advance_load {path : Path} {text : String} (hp : s.document.phase = .init)
    (hf : s.document.filename = some path)
    (hl : s.document.loader s.outlet.disk path s.document.options.encoding = .ok text) :
    s.advance horizon = ({ s with
      document := { s.document with source := text, phase := .readSourceFile } }, .moved) := by
  unfold advance
  dsimp only
  rw [hp]
  dsimp only
  rw [hf]
  dsimp only
  rw [hl]

/-- What was loaded is installed. -/
theorem advance_install (d : Document) (text : String)
    (hs : s.document = { d with source := text, phase := .readSourceFile }) :
    s.advance horizon = ({ s with document := d.install text }, .moved) := by
  have hi : { d with source := text, phase := .readSourceFile }.install text = d.install text := by
    unfold Document.install
    split
    · split <;> rfl
    · rfl
  unfold advance
  dsimp only
  rw [hs]
  dsimp only
  rw [hi]

/-- To render a source that is loaded is to render it when it is installed. -/
theorem render_installed {d : Document} {text : String} (hd : d.phase = .init)
    (h : s.Sourced d text) :
    s.render horizon = { s with document := d.install text }.render horizon := by
  rcases h with h | ⟨rfl, path, hf, hl⟩
  · rw [← h]
  · calc s.render horizon = _ := render_of_moved (advance_load hd hf hl)
      _ = _ := render_of_moved (advance_install s.document text rfl)

variable {s₁ s₂ : Session}

/-- Where splitting and fetching succeed so does the merge. The rendering goes on from it. -/
theorem exists_merge (hd : s.document.Consistent) (ht : s.tokenize = (s₁, .returned ()))
    (hf : s₁.fetch horizon = (s₂, .returned ())) :
    ∃ s₃ segments pending failed merged, s₂.merge = (s₃, .returned ()) ∧
      s₃.document = { s.document with
        segments, pending, failed, merged := some merged, phase := .segmentsMerged } ∧
      s.render horizon = s₃.render horizon := by
  have hc := (hd.changes (changes_of_acts s.tokenize_acts)).changes
    (changes_of_acts ((s.tokenize).1.fetch_acts horizon))
  rw [ht, hf] at hc
  obtain ⟨-, notes, hdt⟩ := tokenize_returned ht
  obtain ⟨scan, -, -, hs₁⟩ := Document.tokenize_eq_ok hdt
  obtain ⟨-, ss, hi, hfail, hs₂⟩ := fetch_returned hf
  obtain ⟨segments, pending, failed, hss⟩ := s₁.document.settleAll_frame ss
  have hp : s₂.document.phase = .fetchedAllInserts := by rw [hs₂]
  have hfail₂ : s₂.document.failed = ∅ := by
    rw [hs₂]
    exact hfail
  obtain ⟨merged, hm⟩ := merge_returned hc.toAccounted hp (by rw [hs₂]; exact hi) hfail₂
  refine ⟨_, segments, pending, failed, merged, hm, ?_, ?_⟩
  · rw [hs₂, hss, hs₁]
  · calc s.render horizon = s₁.render horizon := render_of_moved (advance_tokenize ht)
      _ = s₂.render horizon := render_of_moved (advance_fetch hf)
      _ = _ := render_of_moved (advance_merge hp hfail₂ hm)

end Session

end Inlay
