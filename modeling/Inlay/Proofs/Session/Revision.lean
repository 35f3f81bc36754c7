import Inlay.Proofs.Session.Passage

set_option autoImplicit false

/-! # Hooks that revise the text

A hook may read the text and write back what a function makes of it. The text that is read begins
with the mark of the source, if there is one and it is preserved, and what is written back is
taken to be without it. So every revision puts the mark before the text once more
(`reviseText_eq`): the functions of the hooks are applied one after another, with the mark put
before each result (`render_revisions`). Only where no mark is preserved do they simply compose.
-/

namespace Inlay

namespace Document

/-- The mark that the text of a document begins with, if there is one and it is preserved. -/
def mark (d : Document) : String :=
  if d.options.preserveMark && d.marked then byteOrderMark.toString else ""

theorem install_mark (d : Document) (text : String) : (d.install text).mark =
    if d.options.preserveMark && text.toList.head? == some byteOrderMark then
      byteOrderMark.toString
    else "" := by
  unfold mark install
  cases text.toList with
  | nil => rfl
  | cons c rest =>
      by_cases hc : c = byteOrderMark
      · simp [hc]
      · simp [hc]

/-! ## A text that is read and written back -/

theorem text_of_merged {d : Document} {merged : String} (hp : .segmentsMerged ≤ d.phase)
    (hm : d.merged = some merged) : d.text = .ok (d.mark ++ merged) := by
  unfold text mark
  rw [hm]
  dsimp only
  rw [if_pos hp]
  split
  · rfl
  · rw [String.empty_append]

theorem exists_merged {d : Document} {text : String} (h : d.text = .ok text) :
    ∃ merged, d.merged = some merged ∧ text = d.mark ++ merged := by
  cases hm : d.merged with
  | none =>
      unfold Document.text at h
      rw [hm] at h
      cases h
  | some merged =>
      by_cases hp : .segmentsMerged ≤ d.phase
      · rw [text_of_merged hp hm] at h
        cases h
        exact ⟨merged, rfl, rfl⟩
      · unfold Document.text at h
        rw [hm] at h
        dsimp only at h
        rw [if_neg hp] at h
        cases h

/-- What is written back is read with the mark before it. -/
theorem reviseText_eq {d : Document} {text : String} (f : String → String)
    (hp : d.phase = .segmentsMerged ∨ d.phase = .runningHooks) (ht : d.text = .ok text) :
    d.reviseText f = .ok { d with merged := some (f text) } ∧
      { d with merged := some (f text) }.text = .ok (d.mark ++ f text) := by
  constructor
  · unfold reviseText replaceText
    rw [ht]
    rcases hp with hp | hp
    · rw [hp]
      rfl
    · rw [hp]
      rfl
  · have hle := Phase.segmentsMerged_le_of hp
    exact text_of_merged (d := { d with merged := some (f text) }) hle rfl

/-- To write the text back as it was read leaves it as it was if and only if there is no mark. -/
theorem replaceText_text {d d' : Document} {text : String} (ht : d.text = .ok text)
    (h : d.replaceText text = .ok d') : d'.text = .ok text ↔ d.mark = "" := by
  have hp : d.phase = .segmentsMerged ∨ d.phase = .runningHooks := by
    unfold replaceText at h
    split at h
    · exact .inl ‹_›
    · exact .inr ‹_›
    · cases h
  obtain ⟨hr, ht'⟩ := reviseText_eq id hp ht
  have hd : d.reviseText id = d.replaceText text := by
    unfold reviseText
    rw [ht]
    rfl
  rw [hd, h] at hr
  cases hr
  rw [ht', ← String.append_eq_right_iff (t := text)]
  exact ⟨Except.ok.inj, congrArg Except.ok⟩

end Document

/-- The hook that replaces the text by a function of it. -/
def revision (f : String → String) : Script := [.act (.revise f)]

namespace Session

variable {horizon : Nat} {s s' : Session}

/-! ## Hooks of one action -/

/-- The next hook is started before anything else is done. -/
theorem move_hook {label : String} {script : Script} {d : Document}
    (hp : s.document.phase = .runningHooks)
    (hn : s.document.nextHook? = some (label, script, d)) :
    (Machine.mk [.render] s).move horizon =
      .next ⟨[.hook label script, .render], { s with document := d }⟩ := by
  unfold Machine.move advance
  dsimp only
  rw [hp]
  dsimp only
  rw [hn]

/-- A hook whose one action succeeds is run to its end, and the rendering goes on. -/
theorem render_of_performed {label : String} {action : Action} {d : Document}
    (hp : s.document.phase = .runningHooks)
    (hn : s.document.nextHook? = some (label, [.act action], d))
    (h : { s with document := d }.perform horizon action = (s', .returned ())) :
    s.render horizon = s'.render horizon := by
  have hact : (Machine.mk [.hook label [.act action], .render] { s with document := d }).move
      horizon = .next ⟨[.hook label [], .render], s'⟩ := by
    unfold Machine.move
    dsimp only
    rw [h]
  calc s.render horizon = _ := Machine.run_next (move_hook hp hn)
    _ = _ := Machine.run_next hact
    _ = _ := Machine.run_next rfl

/-- A hook whose one action fails ends the rendering. -/
theorem render_of_unperformed {label reason : String} {action : Action} {d : Document}
    (hp : s.document.phase = .runningHooks)
    (hn : s.document.nextHook? = some (label, [.act action], d))
    (h : { s with document := d }.perform horizon action = (s', .failed reason)) :
    s.render horizon = (s', .failed (.hook label reason)) := by
  have hact : (Machine.mk [.hook label [.act action], .render] { s with document := d }).move
      horizon = .halt s' (.failed (.hook label reason)) := by
    unfold Machine.move
    dsimp only
    rw [h]
    rfl
  exact (Machine.run_next (move_hook hp hn)).trans (Machine.run_halt hact)

/-! ## Revisions -/

/-- A revision is run to its end, and the rendering goes on. -/
theorem render_revision {f : String → String} {rest : List Script} {text : String}
    (hp : s.document.phase = .runningHooks) (ht : s.document.text = .ok text)
    (hh : s.document.waiting = revision f :: rest) :
    ∃ d : Document, d.phase = .runningHooks ∧ d.mark = s.document.mark ∧ d.waiting = rest ∧
      d.text = .ok (s.document.mark ++ f text) ∧
      s.render horizon = { s with document := d }.render horizon := by
  have hsome : s.document.nextHook?.isSome := by
    rw [Option.isSome_iff_ne_none, ne_eq, Document.nextHook?_eq_none, hh]
    exact List.cons_ne_nil _ _
  obtain ⟨⟨label, script, d'⟩, hn⟩ := Option.isSome_iff_exists.mp hsome
  obtain ⟨postHooks, lateHooks, hw, rfl⟩ := Document.nextHook?_eq_some hn
  obtain ⟨rfl, hrest⟩ := List.cons.inj (hh.symm.trans hw)
  let d : Document := { s.document with postHooks, lateHooks, started := s.document.started + 1 }
  obtain ⟨hr, ht'⟩ := Document.reviseText_eq (d := d) f (.inr hp) ht
  have hact : { s with document := d }.perform horizon (.revise f) =
      ({ s with document := { d with merged := some (f text) } }, .returned ()) := by
    unfold perform
    dsimp only
    rw [hr]
    rfl
  exact ⟨{ d with merged := some (f text) }, hp, rfl, hrest.symm, ht',
    render_of_performed hp hn hact⟩

/-- The hooks are run one after another, and the mark is put before the result of each. -/
theorem render_hooks {fs : List (String → String)} {text : String}
    (hp : s.document.phase = .runningHooks) (ht : s.document.text = .ok text)
    (hh : s.document.waiting = fs.map revision) :
    ∃ s', s.render horizon = (s', .returned false) ∧
      s'.document.text = .ok (fs.foldl (fun t f => s.document.mark ++ f t) text) := by
  induction fs generalizing s text with
  | nil =>
      obtain ⟨merged, hm, rfl⟩ := Document.exists_merged ht
      have hr : s.render horizon = _ :=
        (render_of_moved (advance_done hp hh)).trans (render_done rfl)
      exact ⟨_, hr, Document.text_of_merged (d := { s.document with phase := .done })
        (by decide : Phase.segmentsMerged ≤ .done) hm⟩
  | cons f fs ih =>
      obtain ⟨d, hp', hm, hh', ht', hr⟩ := render_revision hp ht hh
      obtain ⟨s', hs', hfold⟩ := ih (s := { s with document := d }) hp' ht' hh'
      refine ⟨s', hr.trans hs', ?_⟩
      rw [hfold, hm]
      rfl

/-- **Revisions are folded over the text, with the mark put before the result of each.** Where no
mark is preserved they compose. -/
theorem render_revisions {d : Document} {text : String} {fs : List (String → String)}
    {s₁ s₂ : Session} (hd : d.Fresh) (hh : d.waiting = fs.map revision)
    (hs : s.Sourced d text)
    (ht : { s with document := d.install text }.tokenize = (s₁, .returned ()))
    (hf : s₁.fetch horizon = (s₂, .returned ())) :
    ∃ s₃ t s', s₂.merge = (s₃, .returned ()) ∧ s₃.document.text = .ok t ∧
      s.render horizon = (s', .returned false) ∧
      s'.document.text = .ok (fs.foldl (fun t f => (d.install text).mark ++ f t) t) ∧
      (d.options.preserveMark = false ∨ text.toList.head? ≠ some byteOrderMark →
        s'.document.text = .ok (fs.foldl (fun t f => f t) t)) := by
  have hc : (d.install text).Consistent := hd.consistent.act
    (.install text (by rw [hd.phase]; decide))
  obtain ⟨s₃, segments, pending, failed, merged, hm, hs₃, hr⟩ :=
    exists_merge (s := { s with document := d.install text }) hc ht hf
  obtain ⟨source, marked, hi⟩ := d.install_eq text
  have hmark : s₃.document.mark = (d.install text).mark := by
    rw [hs₃]
    rfl
  have hwaiting : s₃.document.waiting = fs.map revision := by
    rw [hs₃]
    dsimp only
    rw [hi]
    exact hh
  have hp : s₃.document.phase = .segmentsMerged := by rw [hs₃]
  have hmerged : s₃.document.merged = some merged := by rw [hs₃]
  have ht₃ : s₃.document.text = .ok (s₃.document.mark ++ merged) :=
    Document.text_of_merged (by rw [hp]; decide) hmerged
  -- the text is the same when the hooks are released
  have ht₄ : { s₃.document with phase := .runningHooks }.text =
      .ok (s₃.document.mark ++ merged) := Document.text_of_merged
    (d := { s₃.document with phase := .runningHooks })
    (by decide : Phase.segmentsMerged ≤ .runningHooks) hmerged
  obtain ⟨s', hs', hfold⟩ := @render_hooks horizon
    { s₃ with document := { s₃.document with phase := .runningHooks } } _ _ rfl ht₄ hwaiting
  refine ⟨s₃, _, s', hm, ht₃, ?_, hmark ▸ hfold, fun hno => ?_⟩
  · calc s.render horizon = { s with document := d.install text }.render horizon :=
          render_installed hd.phase hs
      _ = s₃.render horizon := hr
      _ = _ := render_of_moved (advance_release hp)
      _ = (s', .returned false) := hs'
  · have hempty : s₃.document.mark = "" := by
      rw [hmark, Document.install_mark]
      rcases hno with hno | hno
      · rw [hno]
        rfl
      · simp [hno]
    rw [hfold]
    show Except.ok (fs.foldl (fun t f => s₃.document.mark ++ f t) _) = _
    simp only [hempty, String.empty_append]

/-- A fresh document with one hook, which writes the text back as it was read. -/
def copied : Document := { postHooks := [revision id] }

/-- The document when a source with a mark was split, and when there was nothing to fetch for it. -/
def copiedIn (phase : Phase) : Session where
  document := { copied with phase, source := "a", marked := true, segments := [.text "a"] }

theorem copied_tokenize : { document := copied.install "\ufeffa" : Session }.tokenize =
    (copiedIn .tokenized, .returned ()) := by
  have hi : copied.install "\ufeffa" =
      { copied with source := "a", marked := true, phase := .hasSourceText } := rfl
  have hs : (copied.install "\ufeffa").scan = ({ segments := [.text "a"] }, .ok ()) := by
    show Document.scanFrom _ {} .start [] ['a'] = _
    rw [Document.scanFrom_cons _ _ _ (by decide), Document.scanFrom_nil]
    rfl
  unfold tokenize Document.tokenize
  dsimp only
  rw [hs, hi]
  rfl

theorem copied_fetch :
    (copiedIn .tokenized).fetch 0 = (copiedIn .fetchedAllInserts, .returned ()) := by
  have hd : (copiedIn .tokenized).document.fetch (copiedIn .tokenized).outlet.disk
      (0 - (copiedIn .tokenized).now) =
      ((copiedIn .fetchedAllInserts).document, [], .settled 0) := by
    unfold Document.fetch
    rw [Fetching.run_over rfl]
    rfl
  unfold fetch
  rw [hd]
  rfl

/-- A copy of the text has the mark twice. -/
theorem copied_doubled : ∃ s₃ t s', (copiedIn .fetchedAllInserts).merge = (s₃, .returned ()) ∧
    s₃.document.text = .ok t ∧
    { document := copied.install "\ufeffa" : Session }.render 0 = (s', .returned false) ∧
    t = "\ufeffa" ∧ s'.document.text = .ok "\ufeff\ufeffa" := by
  obtain ⟨s₃, t, s', hm, ht, hr, hf, -⟩ :=
    @render_revisions 0 { document := copied.install "\ufeffa" } copied "\ufeffa" [id] _ _
      ⟨rfl, rfl, rfl, rfl, rfl⟩ rfl (.inl rfl) copied_tokenize copied_fetch
  cases hm
  cases ht
  exact ⟨_, _, s', rfl, rfl, hr, rfl, hf⟩

end Session

end Inlay
