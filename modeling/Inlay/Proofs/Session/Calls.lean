import Inlay.Proofs.Session.Failure
import Inlay.Proofs.Session.Progress

set_option autoImplicit false

/-! # Calls that are refused

An operation that is called may be refused: it belongs to another phase, the source cannot be
loaded, the segments cannot be joined, or the text cannot be written. A call that ends so leaves the
document as it was (`refused_unchanged`). For a rendering this says that it is refused at its first
step or not at all: it may find no source, or a phase that is barred because an earlier call was
given up there or found a bad tag, but no advance leads to such a phase (`Phase.barred_next`).
-/

namespace Inlay

open Relation (ReflTransGen)

/-- What can be called of a session. -/
inductive Call where
  | setSource (text : String)
  | tokenize
  | fetch
  | merge
  | replaceText (text : String)
  | text
  | save (path : Path)
  | step
  | render

/-- The ending without what was returned. -/
def Ending.forget {ε α : Type} : Ending ε α → Ending ε Unit
  | .returned _ => .returned ()
  | .failed e => .failed e
  | .suspended => .suspended

theorem Ending.forget_failed {ε α : Type} {e : ε} {ending : Ending ε α}
    (h : ending.forget = .failed e) : ending = .failed e := by
  cases ending <;> cases h
  rfl

/-- Whether an error refuses a call. -/
def RenderError.refuses : RenderError → Bool
  | .usage _ | .load _ | .merge _ _ | .write _ => true
  | .tag _ | .hook _ _ | .failedInserts _ => false

/-- Whether a rendering may be refused in a phase. -/
def Phase.barred : Phase → Bool
  | .init | .tokenizing | .fetchingInserts => true
  | _ => false

/-- No advance leads to a phase that is barred. -/
theorem Phase.barred_next (p : Phase) : p.next.barred = false := by cases p <;> rfl

theorem Phase.barred_running {p : Phase} (h : .runningHooks ≤ p) : p.barred = false := by
  cases p with
  | runningHooks => rfl
  | done => rfl
  | _ => exact absurd h (by decide)

namespace Session

variable {horizon : Nat} {s s' : Session} {e : RenderError}

/-- Call an operation. -/
def call (horizon : Nat) (s : Session) : Call → Session × Ending RenderError Unit
  | .setSource text => s.update ((s.document.setSource text).mapError .usage)
  | .tokenize => s.tokenize
  | .fetch => s.fetch horizon
  | .merge => s.merge
  | .replaceText text => s.update ((s.document.replaceText text).mapError .usage)
  | .text => (s, (Ending.ofExcept (s.document.text.mapError .usage)).forget)
  | .save path => s.save path
  | .step => ((s.step horizon).1, (s.step horizon).2.forget)
  | .render => ((s.render horizon).1, (s.render horizon).2.forget)

open Machine (Reaches) in
/-- To call an operation is to use the session. -/
theorem reaches_call (s : Session) (horizon : Nat) (c : Call) :
    Reaches ⟨[], s⟩ ⟨[], (s.call horizon c).1⟩ := by
  cases c with
  | setSource text => exact .single (.act horizon (.setSource text))
  | tokenize => exact .single (.act horizon .tokenize)
  | fetch => exact .single (.act horizon .fetch)
  | merge => exact .single (.act horizon .merge)
  | replaceText text => exact .single (.act horizon (.replace text))
  | text => exact .refl
  | save path => exact .single (.act horizon (.save path))
  | step => exact s.reaches_step horizon
  | render => exact s.reaches_render horizon

theorem call_consistent {ending : Ending RenderError Unit} {c : Call}
    (hd : s.document.Consistent) (h : s.call horizon c = (s', ending)) :
    s'.document.Consistent := by
  have hc := (s.reaches_call horizon c).changes
  rw [h] at hc
  exact hd.changes hc

theorem step_consistent {ending : Ending RenderError Bool} (hd : s.document.Consistent)
    (h : s.step horizon = (s', ending)) : s'.document.Consistent := by
  have hc := (s.reaches_step horizon).changes
  rw [h] at hc
  exact hd.changes hc

/-! ## How operations fail -/

theorem update_failed {ε : Type} {e : ε} {result : Except ε Document}
    (h : s.update result = (s', .failed e)) : s' = s := by
  cases result with
  | ok d => cases h
  | error e => exact (Prod.mk.inj h).1.symm

/-- How an advance fails. -/
inductive Fails (s : Session) : Session → RenderError → Prop where
  | refused {e : RenderError} (hp : s.document.phase.barred) : Fails s s e
  | misread {s' : Session} (e : TagError) : Fails s s' (.tag e)
  /-- All inserts are settled, and some have failed. -/
  | unfetched {s' : Session} (hp : s'.document.phase = .fetchedAllInserts)
    (hf : s'.document.failed ≠ ∅) : Fails s s' (.failedInserts s'.document.failed)

theorem ofEnding_failed {ending : Ending RenderError Unit}
    (h : Advance.ofEnding ending = .failed e) : ending = .failed e := by
  cases ending <;> cases h
  rfl

/-- A merge that an advance makes does not fail: no insert has. -/
theorem fails_of_advance (hd : s.document.Consistent) (h : s.advance horizon = (s', .failed e)) :
    Fails s s' e := by
  unfold advance at h
  dsimp only at h
  split at h
  · rename_i hp
    split at h
    · cases h
      exact .refused (by rw [hp]; rfl)
    · split at h
      · cases h
      · cases h
        exact .refused (by rw [hp]; rfl)
  · cases h
  · rename_i hp
    obtain ⟨rfl, he⟩ := Prod.mk.inj h
    rcases tokenize_failed (Prod.ext rfl (ofEnding_failed he)) with ⟨-, -, t, rfl⟩ | ⟨hne, -⟩
    · exact .misread t
    · exact absurd hp hne
  · rename_i hp
    cases h
    exact .refused (by rw [hp]; rfl)
  · rename_i hp
    obtain ⟨rfl, he⟩ := Prod.mk.inj h
    rcases fetch_failed (Prod.ext rfl (ofEnding_failed he)) with ⟨-, hp', hf, rfl⟩ | ⟨hne, -⟩
    · exact .unfetched hp' hf
    · exact absurd hp hne
  · rename_i hp
    cases h
    exact .refused (by rw [hp]; rfl)
  · rename_i hp
    split at h
    · rename_i hf
      have hi := hd.settled (by rw [hp]; decide)
      obtain ⟨_, hm⟩ := merge_returned hd.toAccounted hp hi (Std.ExtTreeMap.isEmpty_iff.mp hf)
      rw [hm] at h
      cases h
    · rename_i hf
      cases h
      exact .unfetched hp (mt Std.ExtTreeMap.isEmpty_iff.mpr hf)
  · cases h
  · split at h <;> cases h
  · cases h

/-- A step fails by a hook or because the document cannot be advanced. -/
theorem step_failed (hd : s.document.Consistent) (h : s.step horizon = (s', .failed e)) :
    (∃ label reason, e = .hook label reason) ∨ Fails s s' e := by
  cases stepped h with
  | @failed s₁ _ label _ _ ha hr =>
      obtain ⟨reason, he⟩ := Machine.hook_failed hr
      exact .inl ⟨label, reason, he⟩
  | refused ha => exact .inr (fails_of_advance hd ha)

/-! ## Calls that are refused leave the document alone -/

/-- A step that answers that there are more leads to a phase that is not barred. -/
theorem Steps.unbarred (h : s.Steps horizon s') : s'.document.phase.barred = false := by
  cases (Machine.stepAnswers_of_step h []).answered with
  | moved ha =>
      rw [advance_next ha]
      exact Phase.barred_next _
  | ran ha hr =>
      obtain ⟨hp, hn⟩ := advance_started ha
      have hle := Document.phase_le_of_changes hr
      exact Phase.barred_running (hp ▸ Document.nextHook?_phase hn ▸ hle)

theorem step_refused (hd : s.document.Consistent) (h : s.step horizon = (s', .failed e))
    (he : e.refuses) : s.document.phase.barred ∧ s' = s := by
  rcases step_failed hd h with ⟨label, reason, rfl⟩ | hf
  · cases he
  · cases hf with
    | refused hp => exact ⟨hp, rfl⟩
    | misread e => cases he
    | unfetched hp hf => cases he

/-- A rendering that is refused is refused at its first step. -/
theorem render_refused (hd : s.document.Consistent) (h : s.render horizon = (s', .failed e))
    (he : e.refuses) : s' = s := by
  obtain ⟨s₁, hs, -, heq⟩ := exists_last_step horizon s
  have hd₁ : s₁.document.Consistent :=
    preserved_of_steps (fun s => s.document.Consistent) hs (fun h hd => step_consistent hd h) hd
  obtain ⟨hp, rfl⟩ := step_refused hd₁ (heq.symm.trans h) he
  cases hs with
  | refl => rfl
  | tail _ hlast => exact absurd (hp.symm.trans hlast.unbarred) nofun

end Session

namespace Machine

/-- **A call that is refused leaves the document as it was**, whatever was done with it before. -/
theorem refused_unchanged {m : Machine} (h : m.Reachable) {horizon : Nat} {call : Call}
    {s : Session} {e : RenderError} (hc : m.session.call horizon call = (s, .failed e))
    (he : e.refuses) : s.document = m.session.document := by
  have hd := h.consistent
  cases call with
  | setSource text => rw [Session.update_failed hc]
  | tokenize =>
      rcases Session.tokenize_failed hc with ⟨-, -, t, rfl⟩ | ⟨-, rfl, -⟩
      · cases he
      · rfl
  | fetch =>
      rcases Session.fetch_failed hc with ⟨-, -, -, rfl⟩ | ⟨-, rfl⟩
      · cases he
      · rfl
  | merge => rw [Session.update_failed hc]
  | replaceText text => rw [Session.update_failed hc]
  | text => rw [← (Prod.mk.inj hc).1]
  | save path =>
      rw [← Session.save_document m.session path]
      exact congrArg Session.document (Prod.mk.inj hc).1.symm
  | step =>
      obtain ⟨hs, hf⟩ := Prod.mk.inj hc
      rw [(Session.step_refused hd (Prod.ext hs (Ending.forget_failed hf)) he).2]
  | render =>
      obtain ⟨hs, hf⟩ := Prod.mk.inj hc
      rw [Session.render_refused hd (Prod.ext hs (Ending.forget_failed hf)) he]

/-- The document whose insert has failed cannot be merged. -/
theorem failedLines_refused : ∃ (s : Session) (e : RenderError),
    failedLines.session.call 0 .merge = (s, .failed e) ∧ e.refuses ∧
      s.document = failedLines.session.document := by
  have hp := Session.protests_of_failed failedLines_reachable.consistent rfl failedLines_failed
  obtain ⟨i, failure, -, -, hm⟩ := hp.merge
  have hc : failedLines.session.call 0 .merge = (_, .failed _) := hm
  exact ⟨_, _, hc, rfl, refused_unchanged failedLines_reachable hc rfl⟩

end Machine

end Inlay
