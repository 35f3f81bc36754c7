import Inlay.Proofs.Inserts.Isolation
import Inlay.Proofs.Session.Change

set_option autoImplicit false

/-! # Fetches that are given up

Who waits for a fetch may give it up at any time before it ends. Tasks may be late by then, results
may have been sent and not taken, and the host may have used handles that it was given: `Course`
allows all of it. A result is taken as a whole or not at all (`Course.taken`). So what is left at
that moment is told by the results that were taken: their inserts are settled, and all others are
pending as before (`settleAll_interrupted`). The fetch of the program waits only while some insert
is pending and every result that was sent was taken (`fetch_suspended`).
-/

namespace Inlay

/-- What a task sends when it completes. -/
def Task.sent (t : Task) : List Settlement :=
  match t.deed with
  | .send result => [⟨t.slot, result⟩]
  | .handOver => []

namespace Fetching

theorem complete_channel (f : Fetching) (t : Task) :
    (f.complete t).channel = f.channel ++ t.sent := by
  unfold complete Task.sent
  cases t.deed with
  | send result => rfl
  | handOver => exact (List.append_nil _).symm

theorem complete_document (f : Fetching) (t : Task) : (f.complete t).document = f.document := by
  unfold complete
  cases t.deed <;> rfl

/-- What can happen to a fetch while inserts are pending, and which results were sent by then, in
order: by tasks, and by the host through handles that it was given. -/
inductive Course (f : Fetching) : List Settlement → Fetching → Prop where
  | start : Course f [] f
  | receive {sent rest : List Settlement} {s : Settlement} {g : Fetching} (h : Course f sent g)
    (hp : g.document.pending ≠ ∅) (hc : g.channel = s :: rest) :
    Course f sent { g with document := g.document.settle s, channel := rest }
  | complete {sent : List Settlement} {before after : List Task} {t : Task} {g : Fetching}
    (h : Course f sent g) (hp : g.document.pending ≠ ∅) (ht : g.tasks = before ++ t :: after)
    (hd : t.due ≤ g.now) :
    Course f (sent ++ t.sent) ({ g with tasks := before ++ after }.complete t)
  /-- A handle is used, or let go of, which delivers a failure. -/
  | deliver {sent : List Settlement} {slot : Nat} {g : Fetching} (h : Course f sent g)
    (hs : slot ∈ g.handed) (result : Delivered) :
    Course f (sent ++ [⟨slot, result⟩]) { g with
      channel := g.channel ++ [⟨slot, result⟩], handed := g.handed.erase slot }
  | wait {sent : List Settlement} {time : Nat} {g : Fetching} (h : Course f sent g)
    (ht : g.now ≤ time) : Course f sent { g with now := time }

variable {f g : Fetching} {sent : List Settlement}

/-- The results that were sent were taken in order, or wait; those that were taken were given to
their inserts. -/
theorem Course.taken (h : Course f sent g) (hc : f.channel = []) :
    ∃ taken, sent = taken ++ g.channel ∧ g.document = f.document.settleAll taken := by
  induction h with
  | start => exact ⟨[], hc.symm, rfl⟩
  | @receive sent rest s g _ _ hchannel ih =>
      obtain ⟨taken, hs, hd⟩ := ih
      refine ⟨taken ++ [s], ?_, ?_⟩
      · rw [hs, hchannel, List.append_assoc]
        rfl
      · dsimp only
        rw [hd, Document.settleAll_append]
        rfl
  | complete _ _ _ _ ih =>
      obtain ⟨taken, hs, hd⟩ := ih
      refine ⟨taken, ?_, ?_⟩
      · rw [complete_channel, hs, List.append_assoc]
      · rw [complete_document, hd]
  | deliver _ _ _ ih =>
      obtain ⟨taken, hs, hd⟩ := ih
      exact ⟨taken, by rw [hs, List.append_assoc], hd⟩
  | wait _ _ ih => exact ih

theorem Course.document {d : Document} {disk : Disk} (h : Course (d.beginFetch disk) sent g) :
    ∃ taken, sent = taken ++ g.channel ∧
      g.document = { d.settleAll taken with phase := .fetchingInserts } := by
  obtain ⟨taken, hs, hg⟩ := h.taken rfl
  refine ⟨taken, hs, hg.trans ?_⟩
  exact Document.settleAll_withPhase d .fetchingInserts taken

/-! ## The fetch of the program -/

theorem Step.course {g' : Fetching} (h : Course f sent g) (hs : Step g g') :
    ∃ sent', Course f sent' g' := by
  cases hs with
  | receive hp hc => exact ⟨_, h.receive hp hc⟩
  | complete hp ht hd => exact ⟨_, h.complete hp ht hd⟩
  | wait _ _ ht hd => exact ⟨_, h.wait (Nat.le_of_lt (hd _ ht).1)⟩

theorem Run.course {n : Nat} (h : Run f n g) : ∃ sent, Course f sent g := by
  induction h with
  | start => exact ⟨[], .start⟩
  | step _ hs ih =>
      obtain ⟨sent, hc⟩ := ih
      exact hs.course hc

/-- Unless all is settled, the wait ends only when every result that was sent was taken. -/
theorem waiting_of_over {horizon : Nat} {halt : Halt} (h : f.move horizon = .over halt)
    (hne : halt ≠ .settled) : f.channel = [] ∧ f.document.pending ≠ ∅ := by
  refine ⟨?_, mt (move_halt h).mpr hne⟩
  unfold move at h
  split at h
  · cases h
    exact absurd rfl hne
  · split at h
    · cases h
    · assumption

end Fetching

namespace Document

open Fetching (Course)

/-- A fetch is given up while an insert is pending and every result that was sent was taken. -/
theorem fetch_suspended {d d' : Document} {disk : Disk} {horizon : Nat} {handed : List Nat}
    (h : d.fetch disk horizon = (d', handed, .suspended)) :
    ∃ sent f, Course (d.beginFetch disk) sent f ∧ f.channel = [] ∧ f.document.pending ≠ ∅ ∧
      d' = f.document := by
  unfold fetch at h
  split at h
  · obtain ⟨n, hr, -, hover⟩ := Fetching.run_run horizon (Fetching.ordered_beginFetch d disk)
    obtain ⟨sent, hcourse⟩ := hr.course
    dsimp only at h
    split at h
    · unfold closeFetch at h
      dsimp only at h
      split at h <;> cases h
    · unfold closeFetch at h
      dsimp only at h
      split at h <;> cases h
    · rename_i he
      cases h
      obtain ⟨hc, hp⟩ := Fetching.waiting_of_over hover (by rw [he]; nofun)
      exact ⟨sent, _, hcourse, hc, hp, rfl⟩
    · rename_i he
      cases h
      obtain ⟨hc, hp⟩ := Fetching.waiting_of_over hover (by rw [he]; nofun)
      exact ⟨sent, _, hcourse, hc, hp, rfl⟩
  · cases h

/-! ## What is left -/

/-- The pending inserts that have no result among some that were taken. -/
def unsettled (d : Document) (taken : List Settlement) : Slots PendingInsert :=
  d.pending.filter fun i _ => (firstResult taken i).isNone

theorem unsettled_get (d : Document) (taken : List Settlement) (i : Nat) :
    (d.unsettled taken)[i]? = if (firstResult taken i).isNone then d.pending[i]? else none := by
  unfold unsettled
  rw [Std.ExtTreeMap.getElem?_filter']
  cases d.pending[i]? with
  | none => simp
  | some insert => cases firstResult taken i <;> rfl

/-- What is left of a document whose fetch was given up when some results were taken. -/
structure Interrupted (d : Document) (taken : List Settlement) (d' : Document) : Prop where
  phase : d'.phase = .fetchingInserts
  pending : d'.pending = d.unsettled taken
  /-- The insert of a result that was taken holds what the first one says, after its filter. -/
  settled : ∀ (i : Nat) (insert : PendingInsert) (result : Delivered),
    d.pending[i]? = some insert → firstResult taken i = some result →
      match filtered insert.fetch.filter result with
      | .ok text => d'.segments[i]? = some (.text text) ∧ d'.failed[i]? = none
      | .error e => d'.segments[i]? = some (.failed e) ∧ d'.failed[i]? = some ⟨insert.tag, e⟩
  /-- Every other segment is as it was when the source was split. -/
  others : ∀ i : Nat, d.pending[i]? = none ∨ firstResult taken i = none →
    d'.segments[i]? = d.segments[i]? ∧ d'.failed[i]? = none

/-- The results that were taken tell what is left. -/
theorem settleAll_interrupted {d : Document} (hd : d.Tokenized) (taken : List Settlement) :
    d.Interrupted taken { d.settleAll taken with phase := .fetchingInserts } where
  phase := rfl
  pending := by
    apply Std.ExtTreeMap.ext_getElem?
    intro i
    show (d.settleAll taken).pending[i]? = _
    rw [unsettled_get, settleAll_pending]
    unfold settled?
    cases d.pending[i]? with
    | none => simp
    | some insert => cases firstResult taken i <;> rfl
  settled i insert result hi hr := (settleAll_settled hd hi hr).2
  others i h := by
    obtain ⟨-, hs, hf⟩ := d.settleAll_unsettled h
    exact ⟨hs, hf.trans (hd.failed_none i)⟩

end Document

end Inlay
