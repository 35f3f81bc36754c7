import Inlay.Proofs.Inserts.Interruption
import Inlay.Proofs.Session.Calls
import Inlay.Proofs.Session.Completion

set_option autoImplicit false

/-! # Cancelled fetches

When the wait for the inserts is given up, be it of a fetch that was called or of a step or a
rendering that came to it, the fetch is not resumed: nothing that was sent and not taken reaches
the document any more. What is left is final (`cancelled_fetch`). Every call is refused from then
on, each by the error that its phase has for it (`Call.refusal`), and a rendering tells how many
inserts are outstanding.
-/

namespace Inlay

open Relation (ReflTransGen)
open Fetching (Course)

namespace Document

theorem Consistent.tokenized {d : Document} (h : d.Consistent) (hp : d.phase = .tokenized) :
    d.Tokenized where
  phase := hp
  pending_iff := h.pending_iff
  unfailed := h.failed_not_mem (h.untried hp)
  failed := h.untried hp

/-- What is left of a fetch that was given up stays as long as the document is frozen. -/
theorem Interrupted.frozen {d d' d'' : Document} {taken : List Settlement}
    (h : d.Interrupted taken d') (hf : Frozen d' d'') : d.Interrupted taken d'' where
  phase := hf.phase.trans h.phase
  pending := hf.pending.trans h.pending
  settled := by
    rw [hf.segments, hf.failed]
    exact h.settled
  others := by
    rw [hf.segments, hf.failed]
    exact h.others

end Document

/-! ## Every call is refused -/

/-- The error that refuses a call while inserts of a fetch that was given up are outstanding. -/
def Call.refusal (outstanding : Nat) : Call → UsageError
  | .setSource _ | .tokenize => .alreadyTokenized
  | .fetch => .outOfPhase .fetch .fetchingInserts
  | .merge => .outOfPhase .merge .fetchingInserts
  | .replaceText _ => .outOfPhase .replaceText .fetchingInserts
  | .text | .save _ => .notRendered .fetchingInserts
  | .step | .render => .pendingInserts outstanding

namespace Session

variable {horizon : Nat} {s s' : Session}

theorem advance_outstanding (horizon : Nat) (hp : s.document.phase = .fetchingInserts) :
    s.advance horizon = (s, .failed (.usage (.pendingInserts s.document.pending.size))) := by
  unfold advance
  dsimp only
  rw [hp]

theorem call_refused (horizon : Nat) (hd : s.document.Consistent)
    (hp : s.document.phase = .fetchingInserts) (c : Call) :
    s.call horizon c = (s, .failed (.usage (c.refusal s.document.pending.size))) := by
  have ht : s.document.text = .error (.notRendered .fetchingInserts) := by
    rw [Document.Stuck.text_eq (.inr (.inl hp)) hd, hp]
  cases c with
  | setSource text =>
      unfold call Document.setSource
      rw [hp]
      rfl
  | tokenize =>
      unfold call tokenize Document.tokenize
      rw [hp]
      dsimp only
      rw [List.map_nil, List.append_nil]
      rfl
  | fetch =>
      unfold call fetch Document.fetch
      rw [hp]
      dsimp only
      rw [List.map_nil, List.append_nil]
      rfl
  | merge =>
      unfold call merge Document.merge
      rw [hp]
      rfl
  | replaceText text =>
      unfold call Document.replaceText
      rw [hp]
      rfl
  | text =>
      unfold call
      rw [ht]
      rfl
  | save path =>
      unfold call save
      rw [ht]
      rfl
  | step =>
      have hs : s.step horizon = _ :=
        Machine.run_halt (Machine.move_refused .step [] (advance_outstanding horizon hp))
      unfold call
      rw [hs]
      rfl
  | render =>
      unfold call
      rw [render_of_failed (advance_outstanding horizon hp)]
      rfl

/-! ## Calls that are given up -/

theorem ofEnding_suspended {ending : Ending RenderError Unit}
    (h : Advance.ofEnding ending = .suspended) : ending = .suspended := by
  cases ending <;> cases h
  rfl

/-- A fetch that waits for too long leaves the document as its inserts are by then. -/
theorem fetch_suspended (h : s.fetch horizon = (s', .suspended)) :
    ∃ sent f, Course (s.document.beginFetch s.outlet.disk) sent f ∧ f.channel = [] ∧
      f.document.pending ≠ ∅ ∧ s'.document = f.document := by
  unfold fetch at h
  dsimp only at h
  split at h
  · cases h
  · cases h
  · rename_i hf
    cases h
    exact Document.fetch_suspended (Prod.ext rfl (Prod.ext rfl hf))

/-- A step that waits for too long, when the source is split, waits for the inserts. -/
theorem fetch_of_step (hp : s.document.phase = .tokenized)
    (h : s.step horizon = (s', .suspended)) : s.fetch horizon = (s', .suspended) := by
  cases stepped h with
  | slept ha hr => cases hp.symm.trans (advance_started ha).1
  | waited ha =>
      unfold advance at ha
      dsimp only at ha
      rw [hp] at ha
      obtain ⟨rfl, he⟩ := Prod.mk.inj ha
      exact Prod.ext rfl (ofEnding_suspended he)

/-- So does a rendering, unless it gets past them. -/
theorem fetch_of_render (hp : s.document.phase = .tokenized)
    (h : s.render horizon = (s', .suspended)) (hp' : s'.document.phase = .fetchingInserts) :
    s.fetch horizon = (s', .suspended) := by
  rcases step_cases horizon s with ⟨s₁, hs, -⟩ | ⟨-, heq⟩
  · -- a step that went on is past the inserts, and the phase does not fall
    have hle := Document.phase_le_of_changes (s₁.reaches_render horizon).changes
    rw [← render_of_step hs, h] at hle
    dsimp only at hle
    rw [hp'] at hle
    cases stepped hs with
    | moved ha =>
        rw [advance_next ha, hp] at hle
        exact absurd hle (by decide)
    | ran ha hr => cases hp.symm.trans (advance_started ha).1
  · exact fetch_of_step hp (heq.symm.trans h)

end Session

namespace Machine

/-- **A fetch that is given up leaves its document for good as it is then.** What the program itself
leaves when a fetch, a step or a rendering waits for too long is one moment of the course of the
fetch. At any such moment while an insert is pending, those with a result that was taken are
settled, each by the first one, and all others are pending. Whatever is done afterwards, the
document stays so, every call is refused, a step or a rendering by the number of inserts that are
outstanding, which is not zero, and handles have no effect on it. -/
theorem cancelled_fetch {m : Machine} (h : m.Reachable)
    (hp : m.session.document.phase = .tokenized) :
    (∀ horizon s, (m.session.fetch horizon = (s, .suspended) ∨
        m.session.step horizon = (s, .suspended) ∨
        m.session.render horizon = (s, .suspended) ∧ s.document.phase = .fetchingInserts) →
      ∃ sent f, Course (m.session.document.beginFetch m.session.outlet.disk) sent f ∧
        f.channel = [] ∧ f.document.pending ≠ ∅ ∧ s.document = f.document) ∧
    ∀ disk sent f, Course (m.session.document.beginFetch disk) sent f →
      f.document.pending ≠ ∅ → ∃ taken, sent = taken ++ f.channel ∧
        (m.session.document.unsettled taken).size ≠ 0 ∧
        ∀ m₁ m₂ : Machine, m₁.session.document = f.document → m₁.Reaches m₂ →
          m.session.document.Interrupted taken m₂.session.document ∧
          (∀ horizon (c : Call), m₂.session.call horizon c = (m₂.session,
            .failed (.usage (c.refusal (m.session.document.unsettled taken).size)))) ∧
          ∀ n result, (m₂.session.deliver n result).1.document = m₂.session.document := by
  have hd := h.consistent
  refine ⟨fun horizon s hs => ?_, fun disk sent f hc hne => ?_⟩
  · rcases hs with hs | hs | ⟨hs, hp'⟩
    · exact Session.fetch_suspended hs
    · exact Session.fetch_suspended (Session.fetch_of_step hp hs)
    · exact Session.fetch_suspended (Session.fetch_of_render hp hs hp')
  · obtain ⟨taken, hsent, hf⟩ := hc.document
    have hi := hf ▸ Document.settleAll_interrupted (hd.tokenized hp) taken
    have hcons : f.document.Consistent := by
      rw [hf] at hne ⊢
      exact hd.forsake taken hp hne
    refine ⟨taken, hsent, ?_, fun m₁ m₂ hm hr => ?_⟩
    · rw [← hi.pending]
      exact mt Std.ExtTreeMap.eq_empty_iff_size_eq_zero.mpr hne
    · have hchanges := hr.changes
      rw [hm] at hchanges
      have hi' := hi.frozen (Document.Stuck.changes (.inr (.inl hi.phase)) hcons hchanges)
      refine ⟨hi', fun horizon c => ?_, fun n result => ?_⟩
      · rw [← hi'.pending]
        exact Session.call_refused horizon (hcons.changes hchanges) hi'.phase c
      · unfold Session.deliver
        split <;> rfl

/-- A document of two tags: one comes to a text after 5 milliseconds, and the host is given the
handle of the other. -/
def twoTags : Document where
  registry :=
    let answer (work : Work) : CommandEntry :=
      .handler fun _ tag _ => .pure (.fetch { work }, tag)
    (Registry.unmarked.insert "<a" (answer (.deliver 5 (.ok "x")))).insert "<b" (answer .hold)

/-- The machine when the source of the document was split. -/
def splitTags : Machine where
  stack := []
  session := { document := { twoTags with
    source := "<a><b>"
    phase := .tokenized
    segments := [.pending, .pending]
    pending := ((∅ : Slots PendingInsert).insert 0
      ⟨⟨"a", none, [], ⟨1, 1⟩, "<a>"⟩, { work := .deliver 5 (.ok "x") }⟩).insert 1
      ⟨⟨"b", none, [], ⟨1, 4⟩, "<b>"⟩, { work := .hold }⟩ } }

theorem splitTags_reachable : splitTags.Reachable := by
  have hsplit : (Session.tokenize { document := twoTags.install "<a><b>" }).1 =
      splitTags.session := by with_unfolding_all rfl
  refine ⟨{ document := twoTags }, ⟨rfl, rfl, rfl, rfl, rfl⟩, ?_⟩
  refine .tail (.single (.act 0 (.setSource "<a><b>"))) ?_
  rw [show splitTags = ⟨[], splitTags.session⟩ from rfl, ← hsplit]
  exact .act 0 .tokenize

/-- The timers of the two inserts. -/
def splitTimers : List Task :=
  [⟨0, 30000, .first, .send (.error (.timedOut "tag <a> @ 1:1" 30000))⟩,
    ⟨1, 30000, .first, .send (.error (.timedOut "tag <b> @ 1:4" 30000))⟩]

theorem splitTags_tasks : (splitTags.session.document.beginFetch {}).tasks =
    ⟨1, 0, .first, .handOver⟩ :: ⟨0, 5, .first, .send (.ok "x")⟩ :: splitTimers := by
  with_unfolding_all rfl

/-- The fetch when the text has come and was taken, and the handle was given away. -/
def oneHeld : Fetching where
  document := { splitTags.session.document with phase := .fetchingInserts }.settle ⟨0, .ok "x"⟩
  now := 5
  tasks := splitTimers
  handed := [1]

theorem splitTags_course :
    Course (splitTags.session.document.beginFetch {}) [⟨0, .ok "x"⟩] oneHeld := by
  have hp : splitTags.session.document.pending ≠ ∅ := Slots.ne_empty (Slots.get_insert _ 1 1 _)
  have h₁ := @Course.complete _ _ [] _ _ _ .start hp splitTags_tasks (Nat.le_refl 0)
  have h₂ := h₁.wait (Nat.zero_le 5)
  have h₃ := @Course.complete _ _ [] _ _ _ h₂ hp rfl (Nat.le_refl 5)
  exact h₃.receive hp rfl

/-- The session when the fetch was given up. -/
def heldTags : Session where
  document := oneHeld.document
  handles := [⟨1, false⟩]

/-- The text that came stays, and the handle has no effect when it is used. -/
theorem heldTags_cancelled :
    let s := (heldTags.deliver 0 (.ok "late")).1
    s.document.segments[0]? = some (.text "x") ∧ s.document.segments[1]? = some .pending ∧
      s.call 0 .render = (s, .failed (.usage (.pendingInserts 1))) := by
  intro s
  have hp : oneHeld.document.pending ≠ ∅ :=
    Slots.ne_empty ((Document.settle_pending _ _ 1).trans (Slots.get_insert _ 1 1 _))
  obtain ⟨-, hcourse⟩ := cancelled_fetch splitTags_reachable rfl
  obtain ⟨taken, hsent, -, hfinal⟩ := hcourse {} _ _ splitTags_course hp
  obtain rfl : [⟨0, .ok "x"⟩] = taken := hsent.trans (List.append_nil _)
  obtain ⟨hi, hcall, -⟩ := hfinal ⟨[], heldTags⟩ ⟨[], s⟩ rfl
    (.single (.elsewhere heldTags.outlet heldTags.notes [⟨1, true⟩] heldTags.now))
  have hsize : (splitTags.session.document.unsettled [⟨0, .ok "x"⟩]).size = 1 := by
    with_unfolding_all rfl
  rw [hsize] at hcall
  exact ⟨(hi.settled 0 _ _ rfl rfl).1, (hi.others 1 (.inr rfl)).1, hcall 0 .render⟩

end Machine

end Inlay
