import Inlay.Proofs.Session.Calls
import Inlay.Proofs.Session.Completion
import Inlay.Proofs.Session.Revision

set_option autoImplicit false

/-! # Driving by hand

A host may drive a document itself: by steps, by the operations that belong to its phases, or by any
mixture of the two, calls that are refused included. As long as no call ends by an error that takes
something away, to render afterwards is to render at once (`render_by_hand`). One call that goes
well makes the advance that the rendering would make, one that is refused does nothing, and the
failures of inserts are told again (`render_call`).
-/

namespace Inlay

/-- Whether a call drives a document towards the end of its rendering, by one phase at most. -/
def Call.drives : Call → Bool
  | .step | .tokenize | .fetch | .merge => true
  | _ => false

/-- Whether an error takes something away: a source that could not be split is not split again, and
a hook that failed is not started again. -/
def RenderError.fatal : RenderError → Bool
  | .tag _ | .hook _ _ => true
  | .usage _ | .load _ | .merge _ _ | .failedInserts _ | .write _ => false

/-- Whether a call comes to an end, and not to a fatal error. -/
def Ending.passes : Ending RenderError Unit → Bool
  | .returned () => true
  | .failed e => !e.fatal
  | .suspended => false

namespace Session

variable {horizon : Nat} {s s' : Session}

/-- Make calls one after another, whatever they answer. -/
def calls (horizon : Nat) (s : Session) : List Call → Session
  | [] => s
  | c :: cs => (s.call horizon c).1.calls horizon cs

/-- How calls that are made one after another end. -/
def endings (horizon : Nat) (s : Session) : List Call → List (Ending RenderError Unit)
  | [] => []
  | c :: cs => (s.call horizon c).2 :: (s.call horizon c).1.endings horizon cs

/-- The failures of inserts are told again. -/
theorem render_failed (hd : s'.document.Consistent) (hp : s'.document.phase = .fetchedAllInserts)
    (hf : s'.document.failed ≠ ∅)
    (h : s.render horizon = (s', .failed (.failedInserts s'.document.failed))) :
    s'.render horizon = s.render horizon :=
  ((protests_of_failed hd hp hf).render horizon).trans h.symm

theorem render_stepped {ending : Ending RenderError Bool} (hd : s.document.Consistent)
    (h : s.step horizon = (s', ending)) (he : ending.forget.passes) :
    s'.render horizon = s.render horizon := by
  cases ending with
  | returned more =>
      cases more with
      | true => exact (render_of_step h).symm
      | false =>
          rw [(Machine.stepAnswers_false_iff.mp (Machine.stepAnswers_of_step h [])).2]
  | failed e =>
      have hd' := step_consistent hd h
      have hlast : (s.step horizon).2 ≠ .returned true := by
        rw [h]
        nofun
      rcases step_failed hd h with ⟨label, reason, rfl⟩ | hfails
      · cases he
      · cases hfails with
        | refused hp => rfl
        | misread e => cases he
        | unfetched hp hf => exact render_failed hd' hp hf ((render_of_last hlast).trans h)
  | suspended => cases he

theorem render_tokenized {ending : Ending RenderError Unit} (h : s.tokenize = (s', ending))
    (he : ending.passes) : s'.render horizon = s.render horizon := by
  cases ending with
  | returned => exact (render_of_moved (advance_tokenize h)).symm
  | failed e =>
      rcases tokenize_failed h with ⟨-, -, t, rfl⟩ | ⟨-, rfl, -⟩
      · cases he
      · rfl
  | suspended => cases he

theorem render_fetched {ending : Ending RenderError Unit} (hd : s'.document.Consistent)
    (h : s.fetch horizon = (s', ending)) (he : ending.passes) :
    s'.render horizon = s.render horizon := by
  cases ending with
  | returned => exact (render_of_moved (advance_fetch h)).symm
  | failed e =>
      rcases fetch_failed h with ⟨hp, hp', hf, rfl⟩ | ⟨-, rfl⟩
      · refine render_failed hd hp' hf (render_of_failed ?_)
        unfold advance
        dsimp only
        rw [hp]
        dsimp only
        rw [h]
        rfl
      · rfl
  | suspended => cases he

theorem render_merged {ending : Ending RenderError Unit} (hd : s.document.Consistent)
    (h : s.merge = (s', ending)) (he : ending.passes) :
    s'.render horizon = s.render horizon := by
  cases ending with
  | returned =>
      obtain ⟨hp, _, hj, -⟩ := merged_of_merge h
      have hf := hd.unfailed (Document.texts_of_joinSegments hj)
      exact (render_of_moved (advance_merge hp hf h)).symm
  | failed e => rw [update_failed h]
  | suspended => cases he

/-- One call leaves the rendering what it was. -/
theorem render_call {c : Call} {ending : Ending RenderError Unit} (hd : s.document.Consistent)
    (hc : c.drives) (h : s.call horizon c = (s', ending)) (he : ending.passes) :
    s'.render horizon = s.render horizon := by
  have hd' := call_consistent hd h
  cases c with
  | step =>
      obtain ⟨rfl, rfl⟩ := Prod.mk.inj h
      exact render_stepped hd rfl he
  | tokenize => exact render_tokenized h he
  | fetch => exact render_fetched hd' h he
  | merge => exact render_merged hd h he
  | _ => cases hc

theorem render_of_calls {cs : List Call} (hd : s.document.Consistent) (hc : ∀ c ∈ cs, c.drives)
    (he : ∀ ending ∈ s.endings horizon cs, ending.passes) :
    (s.calls horizon cs).render horizon = s.render horizon := by
  induction cs generalizing s with
  | nil => rfl
  | cons c cs ih =>
      obtain ⟨hc₁, hcs⟩ := List.forall_mem_cons.mp hc
      obtain ⟨he₁, hes⟩ := List.forall_mem_cons.mp he
      calc (s.calls horizon (c :: cs)).render horizon
          = (s.call horizon c).1.render horizon := ih (call_consistent hd rfl) hcs hes
        _ = s.render horizon := render_call hd hc₁ rfl he₁

end Session

namespace Machine

/-- **To drive a document by hand and then render it is to render it.** Steps and operations may be
called in any order, whether or not their phase has come. As long as none of them finds a bad tag,
runs a hook that fails or waits beyond the horizon, the rendering answers what it would have
answered at once, and leaves the same session. -/
theorem render_by_hand {m : Machine} (h : m.Reachable) {horizon : Nat} {cs : List Call}
    (hc : ∀ c ∈ cs, c.drives) (he : ∀ ending ∈ m.session.endings horizon cs, ending.passes) :
    (m.session.calls horizon cs).render horizon = m.session.render horizon :=
  Session.render_of_calls h.consistent hc he

open Session (copied copiedIn copied_tokenize copied_fetch) in
/-- A document is split and fetched by its operations and merged by a step, with two calls between
that are refused. -/
theorem copied_by_hand : ∃ (m : Machine) (cs : List Call),
    m.Reachable ∧ m.session.document = copied.install "\ufeffa" ∧
      cs = [.merge, .tokenize, .tokenize, .fetch, .step] ∧
      (m.session.calls 0 cs).document.merged = some "a" ∧
      (m.session.calls 0 cs).render 0 = m.session.render 0 := by
  let s : Session := { document := copied.install "\ufeffa" }
  let merged : Session := { copiedIn .segmentsMerged with
    document := { (copiedIn .segmentsMerged).document with merged := some "a" } }
  let cs : List Call := [.merge, .tokenize, .tokenize, .fetch, .step]
  have hreach : Reachable ⟨[], s⟩ :=
    ⟨{ document := copied }, ⟨rfl, rfl, rfl, rfl, rfl⟩, .single (.act 0 (.setSource "\ufeffa"))⟩
  have hmerge : s.merge = (s, .failed (.usage (.outOfPhase .merge .hasSourceText))) := rfl
  have hsplit : s.tokenize = (copiedIn .tokenized, .returned ()) := copied_tokenize
  have hagain : (copiedIn .tokenized).tokenize =
      (copiedIn .tokenized, .failed (.usage .alreadyTokenized)) := rfl
  have hstep : (copiedIn .fetchedAllInserts).step 0 = (merged, .returned true) :=
    (run_next rfl).trans (run_halt rfl)
  have hcalls : s.calls 0 cs = merged := by
    simp only [cs, Session.calls, Session.call, hmerge, hsplit, hagain, copied_fetch, hstep]
  have hpass : ∀ ending ∈ s.endings 0 cs, ending.passes := by
    simp only [cs, Session.endings, Session.call, hmerge, hsplit, hagain, copied_fetch, hstep]
    decide
  exact ⟨⟨[], s⟩, cs, hreach, rfl, rfl, congrArg (fun s => s.document.merged) hcalls,
    render_by_hand hreach (by decide) hpass⟩

end Machine

end Inlay
