import Inlay.Proofs.Session.Completion
import Inlay.Proofs.Session.Revision
import Inlay.Proofs.Source.Outline

set_option autoImplicit false

/-! # Late hooks

Late hooks wait until nothing else is left to do. What a rendering does before its hooks are started
does not hang on them: splitting, fetching and joining neither see them nor change them. So of
documents that differ in their late hooks alone either all end before, in the same way, or all come
to the same text, and their hooks are started there (`arrival`). A late hook that saves the text is
then the last that is done (`render_saving`).
-/

namespace Inlay

namespace Document

/-- The document with other late hooks. -/
def withLate (d : Document) (hooks : List Script) : Document := { d with lateHooks := hooks }

variable (d : Document) (hooks : List Script)

/-! ## Operations do not see late hooks -/

theorem tokenize_withLate : (d.withLate hooks).tokenize =
    (d.tokenize.1.withLate hooks, d.tokenize.2) := by
  have hs : (d.withLate hooks).scan = d.scan := scan_congr rfl rfl fun _ _ => rfl
  have hp : (d.withLate hooks).phase = d.phase := rfl
  unfold tokenize
  rw [hs, hp]
  cases d.phase with
  | hasSourceText =>
      obtain ⟨s, result⟩ := d.scan
      cases result <;> rfl
  | _ => rfl

theorem settle_withLate (s : Settlement) :
    (d.withLate hooks).settle s = (d.settle s).withLate hooks := by
  have hp : (d.withLate hooks).pending = d.pending := rfl
  unfold settle
  rw [hp]
  cases d.pending[s.slot]? with
  | none => rfl
  | some insert =>
      dsimp only
      cases filtered insert.fetch.filter s.result <;> rfl

theorem abandonPending_withLate :
    (d.withLate hooks).abandonPending = d.abandonPending.withLate hooks := by
  have hrecord (inserts : List (Nat × PendingInsert)) (d : Document) :
      (d.withLate hooks).recordAbandoned inserts = (d.recordAbandoned inserts).withLate hooks := by
    induction inserts generalizing d with
    | nil => rfl
    | cons x inserts ih => exact ih (d.recordFailure x.1 ⟨x.2.tag, .abandoned x.2.tag.label⟩)
  rw [abandonPending_record, abandonPending_record]
  exact hrecord d.pending.toList { d with pending := ∅ }

end Document

namespace Fetching

/-- The fetch of the document with other late hooks. -/
def withLate (f : Fetching) (hooks : List Script) : Fetching :=
  { f with document := f.document.withLate hooks }

variable {horizon : Nat} {f f' : Fetching}

theorem run_again (h : f.move horizon = .again f') : f.run horizon = f'.run horizon := by
  rw [run]
  split
  · rename_i h'
    cases h.symm.trans h'
    rfl
  · rename_i h'
    cases h.symm.trans h'

theorem move_withLate (hooks : List Script) : (f.withLate hooks).move horizon =
    match f.move horizon with
    | .again f' => .again (f'.withLate hooks)
    | .over halt => .over halt := by
  have hcomplete (f : Fetching) (t : Task) :
      (f.withLate hooks).complete t = (f.complete t).withLate hooks := by
    unfold complete
    cases t.deed <;> rfl
  have hp : (f.withLate hooks).document.pending = f.document.pending := rfl
  have hc : (f.withLate hooks).channel = f.channel := rfl
  have ht : (f.withLate hooks).tasks = f.tasks := rfl
  unfold move
  rw [hp, hc, ht]
  by_cases hempty : f.document.pending.isEmpty
  · rw [if_pos hempty, if_pos hempty]
  · rw [if_neg hempty, if_neg hempty]
    cases f.channel with
    | cons s rest => exact congrArg Progress.again (by
        unfold withLate
        rw [Document.settle_withLate])
    | nil =>
        cases f.tasks with
        | nil => rfl
        | cons t rest =>
            dsimp only
            split
            · rfl
            · exact congrArg Progress.again (hcomplete { f with
                now := t.due, tasks := rest, channel := [] } t)

theorem run_withLate (horizon : Nat) (f : Fetching) (hooks : List Script) :
    (f.withLate hooks).run horizon = ((f.run horizon).1.withLate hooks, (f.run horizon).2) := by
  fun_induction run horizon f with
  | case1 f f' hm ih =>
      have hm' : (f.withLate hooks).move horizon = .again (f'.withLate hooks) := by
        rw [move_withLate, hm]
      exact (run_again hm').trans ih
  | case2 f halt hm =>
      have hm' : (f.withLate hooks).move horizon = .over halt := by
        rw [move_withLate, hm]
      exact run_over hm'

end Fetching

namespace Document

variable (d : Document) (hooks : List Script)

theorem fetch_withLate (disk : Disk) (horizon : Nat) : (d.withLate hooks).fetch disk horizon =
    ((d.fetch disk horizon).1.withLate hooks, (d.fetch disk horizon).2) := by
  have hbegin : (d.withLate hooks).beginFetch disk = (d.beginFetch disk).withLate hooks := rfl
  have hp : (d.withLate hooks).phase = d.phase := rfl
  unfold fetch
  rw [hbegin, Fetching.run_withLate, hp]
  cases d.phase with
  | tokenized =>
      obtain ⟨f, halt⟩ := (d.beginFetch disk).run horizon
      cases halt with
      | closed =>
          have hf : (f.withLate hooks).document = f.document.withLate hooks := rfl
          dsimp only
          rw [hf, abandonPending_withLate]
          rfl
      | _ => rfl
  | _ => rfl

theorem merge_withLate : (d.withLate hooks).merge = d.merge.map (withLate · hooks) := by
  have hp : (d.withLate hooks).phase = d.phase := rfl
  have hs : (d.withLate hooks).segments = d.segments := rfl
  unfold merge
  rw [hp, hs]
  cases d.phase with
  | fetchedAllInserts =>
      dsimp only
      cases joinSegments 0 d.segments <;> rfl
  | _ => rfl

theorem install_withLate (text : String) :
    (d.withLate hooks).install text = (d.install text).withLate hooks := by
  unfold install
  split
  · split <;> rfl
  · rfl

end Document

namespace Session

/-- The session with other late hooks of its document. -/
def withLate (s : Session) (hooks : List Script) : Session :=
  { s with document := s.document.withLate hooks }

variable {horizon : Nat} {s s' : Session}

theorem tokenize_withLate (s : Session) (hooks : List Script) :
    (s.withLate hooks).tokenize = (s.tokenize.1.withLate hooks, s.tokenize.2) := by
  unfold tokenize withLate
  dsimp only
  rw [Document.tokenize_withLate]

theorem fetch_withLate (horizon : Nat) (s : Session) (hooks : List Script) :
    (s.withLate hooks).fetch horizon =
      ((s.fetch horizon).1.withLate hooks, (s.fetch horizon).2) := by
  unfold fetch withLate
  dsimp only
  rw [Document.fetch_withLate]
  obtain ⟨d, handed, fetched⟩ := s.document.fetch s.outlet.disk (horizon - s.now)
  cases fetched <;> rfl

theorem merge_withLate (s : Session) (hooks : List Script) :
    (s.withLate hooks).merge = (s.merge.1.withLate hooks, s.merge.2) := by
  unfold merge withLate
  rw [Document.merge_withLate]
  cases s.document.merge <;> rfl

/-! ## The way to the hooks -/

theorem tokenize_outlet (s : Session) : s.tokenize.1.outlet = s.outlet := rfl

theorem fetch_outlet (horizon : Nat) (s : Session) : (s.fetch horizon).1.outlet = s.outlet := by
  unfold fetch
  dsimp only
  split <;> rfl

theorem advance_of_tokenize (hp : s.document.phase = .hasSourceText) :
    s.advance horizon = (s.tokenize.1, .ofEnding s.tokenize.2) := by
  unfold advance
  dsimp only
  rw [hp]

theorem advance_of_fetch (hp : s.document.phase = .tokenized) :
    s.advance horizon = ((s.fetch horizon).1, .ofEnding (s.fetch horizon).2) := by
  unfold advance
  dsimp only
  rw [hp]

/-- What the rendering of an installed source comes to before a hook may be started, whatever late
hooks are waiting. -/
inductive Arrival (horizon : Nat) (s : Session) : Prop where
  | failed {s' : Session} {e : RenderError} (ho : s'.outlet = s.outlet)
    (hf : ∀ failed, e = .failedInserts failed → s'.document.failed = failed)
    (h : ∀ hooks, (s.withLate hooks).render horizon = (s'.withLate hooks, .failed e))
  | suspended {s₁ s' : Session} (ht : s.tokenize = (s₁, .returned ()))
    (hf : s₁.fetch horizon = (s', .suspended))
  /-- The segments are joined, and the hooks are next. -/
  | merged {s' : Session} {texts : List String} (ho : s'.outlet = s.outlet)
    (hs : s.document.SameHooks s'.document) (hopts : s'.document.options = s.document.options)
    (hp : s'.document.phase = .runningHooks) (htexts : s'.document.segments = texts.map .text)
    (htext : s'.document.text = .ok (s.document.mark ++ String.join texts))
    (h : ∀ hooks, (s.withLate hooks).render horizon = (s'.withLate hooks).render horizon)

theorem tokenize_ne_suspended (s : Session) : s.tokenize.2 ≠ .suspended := by
  rcases s.document.tokenize_cases with ⟨d', notes, -, h⟩ | ⟨notes, e, -, h⟩ | ⟨e, -, h⟩
  all_goals
    unfold tokenize
    rw [h]
    nofun

/-- When all inserts are fetched, the segments are joined and the hooks are next. -/
theorem arrival_of_fetched {s₁ s₂ : Session} (hd : s.document.Consistent)
    (ht : s.tokenize = (s₁, .returned ())) (hf : s₁.fetch horizon = (s₂, .returned ())) :
    s.Arrival horizon := by
  obtain ⟨s₃, segments, pending, failed, merged, hm, hs₃, -⟩ := exists_merge hd ht hf
  obtain ⟨-, ss, -, hfailed, hs₂⟩ := fetch_returned hf
  obtain ⟨hp₂, text, hj, hs₃'⟩ := merged_of_merge hm
  have hfailed₂ : s₂.document.failed = ∅ := by
    rw [hs₂]
    exact hfailed
  have ho : s₃.outlet = s.outlet := by
    have ho₁ := s.tokenize_outlet
    have ho₂ := fetch_outlet horizon s₁
    rw [ht] at ho₁
    rw [hf] at ho₂
    rw [hs₃']
    exact ho₂.trans ho₁
  obtain ⟨texts, htexts⟩ := Document.exists_texts (Document.texts_of_joinSegments hj)
  have htext : merged = String.join texts := by
    have hmerged := congrArg Document.merged (hs₃.symm.trans (congrArg Session.document hs₃'))
    rw [htexts, Document.joinSegments_texts] at hj
    cases hj
    exact Option.some.inj hmerged
  have hsegments : s₃.document.segments = texts.map .text := by
    rw [hs₃']
    exact htexts
  let s₄ : Session := { s₃ with document := { s₃.document with phase := .runningHooks } }
  have hmark : s₄.document.mark = s.document.mark := by
    show s₃.document.mark = _
    rw [hs₃]
    rfl
  have hread : s₄.document.text = .ok (s.document.mark ++ String.join texts) := by
    rw [← hmark, ← htext]
    refine Document.text_of_merged (by decide : Phase.segmentsMerged ≤ .runningHooks) ?_
    show s₃.document.merged = _
    rw [hs₃]
  refine @Arrival.merged horizon s s₄ texts ho ?_ ?_ rfl hsegments hread fun hooks => ?_
  · show s.document.SameHooks { s₃.document with phase := .runningHooks }
    rw [hs₃]
    exact ⟨rfl, rfl, rfl⟩
  · show s₃.document.options = _
    rw [hs₃]
  · have ht' : (s.withLate hooks).tokenize = (s₁.withLate hooks, .returned ()) := by
      rw [tokenize_withLate, ht]
    have hf' : (s₁.withLate hooks).fetch horizon = (s₂.withLate hooks, .returned ()) := by
      rw [fetch_withLate, hf]
    have hm' : (s₂.withLate hooks).merge = (s₃.withLate hooks, .returned ()) := by
      rw [merge_withLate, hm]
    have hp₃ : (s₃.withLate hooks).document.phase = .segmentsMerged := by
      show s₃.document.phase = _
      rw [hs₃]
    calc (s.withLate hooks).render horizon
        = (s₁.withLate hooks).render horizon := render_of_moved (advance_tokenize ht')
      _ = (s₂.withLate hooks).render horizon := render_of_moved (advance_fetch hf')
      _ = (s₃.withLate hooks).render horizon := render_of_moved (advance_merge hp₂ hfailed₂ hm')
      _ = (s₄.withLate hooks).render horizon := render_of_moved (advance_release hp₃)

/-- When the source is split, the fetch is next. -/
theorem arrival_of_tokenized {s₁ : Session} (hd : s.document.Consistent)
    (ht : s.tokenize = (s₁, .returned ())) : s.Arrival horizon := by
  obtain ⟨-, notes, hdt⟩ := tokenize_returned ht
  obtain ⟨scan, -, -, hd₁⟩ := Document.tokenize_eq_ok hdt
  have hp₁ : s₁.document.phase = .tokenized := by rw [hd₁]
  have ho : (s₁.fetch horizon).1.outlet = s.outlet := by
    have ho₁ := s.tokenize_outlet
    rw [ht] at ho₁
    exact (fetch_outlet horizon s₁).trans ho₁
  cases hf : s₁.fetch horizon with
  | mk s₂ ending =>
      rw [hf] at ho
      cases ending with
      | returned => exact arrival_of_fetched hd ht hf
      | suspended => exact .suspended ht hf
      | failed e =>
          refine @Arrival.failed horizon s s₂ e ho ?_ fun hooks => ?_
          · rintro failed rfl
            rcases fetch_failed hf with ⟨-, -, -, he⟩ | ⟨hne, -⟩
            · exact (RenderError.failedInserts.inj he).symm
            · exact absurd hp₁ hne
          · have ht' : (s.withLate hooks).tokenize = (s₁.withLate hooks, .returned ()) := by
              rw [tokenize_withLate, ht]
            have hp' : (s₁.withLate hooks).document.phase = .tokenized := hp₁
            have ha : (s₁.withLate hooks).advance horizon = (s₂.withLate hooks, .failed e) := by
              rw [advance_of_fetch hp', fetch_withLate, hf]
              rfl
            exact (render_of_moved (advance_tokenize ht')).trans (render_of_failed ha)

theorem arrival (hd : s.document.Consistent) (hp : s.document.phase = .hasSourceText) :
    s.Arrival horizon := by
  cases ht : s.tokenize with
  | mk s₁ ending =>
      cases ending with
      | returned => exact arrival_of_tokenized hd ht
      | suspended => exact absurd (congrArg Prod.snd ht) s.tokenize_ne_suspended
      | failed e =>
          have ho := s.tokenize_outlet
          rw [ht] at ho
          refine @Arrival.failed horizon s s₁ e ho ?_ fun hooks => render_of_failed ?_
          · rintro failed rfl
            rcases tokenize_failed ht with ⟨-, -, t, he⟩ | ⟨-, -, u, he⟩
            · cases he
            · cases he
          · have hp' : (s.withLate hooks).document.phase = .hasSourceText := hp
            rw [advance_of_tokenize hp', tokenize_withLate, ht]
            rfl

/-- A rendering that has a source to load fails to load it, or comes to what it comes to when the
source is installed. -/
theorem render_unloaded (hp : s.document.phase = .init) {path : Path}
    (hf : s.document.filename = some path) :
    (∃ e, s.document.loader s.outlet.disk path s.document.options.encoding = .error e ∧
      ∀ hooks, (s.withLate hooks).render horizon = (s.withLate hooks, .failed (.load e))) ∨
    ∃ source, s.document.loader s.outlet.disk path s.document.options.encoding = .ok source ∧
      ∀ hooks, (s.withLate hooks).render horizon =
        ({ s with document := s.document.install source }.withLate hooks).render horizon := by
  cases hl : s.document.loader s.outlet.disk path s.document.options.encoding with
  | error e =>
      refine .inl ⟨e, rfl, fun hooks => render_of_failed ?_⟩
      unfold advance withLate Document.withLate
      dsimp only
      rw [hp]
      dsimp only
      rw [hf]
      dsimp only
      rw [hl]
  | ok source =>
      refine .inr ⟨source, rfl, fun hooks => ?_⟩
      have hs : (s.withLate hooks).Sourced (s.document.withLate hooks) source :=
        .inr ⟨rfl, path, hf, hl⟩
      have hp' : (s.document.withLate hooks).phase = .init := hp
      rw [render_installed hp' hs, Document.install_withLate]
      rfl

/-! ## A text that is saved at the end -/

/-- The hook that writes the text to a path. -/
def saving (path : Path) : Script := [.act (.save path)]

/-- A text that is saved by the last hook is written when the rendering is complete; if it cannot be
written, the hook fails, and nothing is. -/
theorem render_saving {path : Path} {text : String} (hp : s.document.phase = .runningHooks)
    (hpost : s.document.postHooks = []) (ht : s.document.text = .ok text) :
    (∀ outlet, s.outlet.write path text s.document.options.encoding = .ok outlet →
      ∃ s', (s.withLate [saving path]).render horizon = (s', .returned false) ∧
        s'.outlet = outlet) ∧
    ∀ e, s.outlet.write path text s.document.options.encoding = .error e →
      ∃ s' label, (s.withLate [saving path]).render horizon =
          (s', .failed (.hook label e.message)) ∧
        s'.outlet = s.outlet := by
  let label := Queue.late.name ++ "#" ++ toString (s.document.started + 1)
  let s₁ : Session := { s with
    document := { s.document with
      postHooks := [], lateHooks := [], started := s.document.started + 1 } }
  have hp' : (s.withLate [saving path]).document.phase = .runningHooks := hp
  have ht₁ : s₁.document.text = .ok text := ht
  have hn : (s.withLate [saving path]).document.nextHook? =
      some (label, saving path, s₁.document) := by
    unfold Document.nextHook? withLate Document.withLate
    dsimp only
    rw [hpost]
  refine ⟨fun outlet hw => ?_, fun e hw => ?_⟩
  · have hact : s₁.perform horizon (.save path) = ({ s₁ with outlet }, .returned ()) :=
      congrArg (fun r : Session × Ending RenderError Unit =>
        (r.1, r.2.mapError RenderError.message)) (save_written ht₁ hw)
    have hp₁ : { s₁ with outlet }.document.phase = .runningHooks := hp
    have hrun : (s.withLate [saving path]).render horizon = _ :=
      calc (s.withLate [saving path]).render horizon
          = { s₁ with outlet }.render horizon := render_of_performed hp' hn hact
        _ = _ := render_of_moved (advance_done hp₁ rfl)
        _ = _ := render_done rfl
    exact ⟨_, hrun, rfl⟩
  · have hact : s₁.perform horizon (.save path) = (s₁, .failed e.message) :=
      congrArg (fun r : Session × Ending RenderError Unit =>
        (r.1, r.2.mapError RenderError.message)) (save_refused ht₁ hw)
    exact ⟨s₁, label, render_of_unperformed hp' hn hact, rfl⟩

end Session

end Inlay
