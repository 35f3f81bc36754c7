import Inlay.Proofs.Inserts.Delivery
import Inlay.Session.Basic

set_option autoImplicit false

/-! # Handles that outlive their fetch

The host may use the handle of an insert when the fetch is over, because no insert is pending or
because it was given up. For a session the result reaches nobody then (`Session.deliver`). This is
what the channel comes to if its holders are followed on: the handle sends its result and gives up
its sender, but whatever is sent stays in the channel (`Exchange.Course.over`). Behind each handle
that a fetch leaves to the host stands a holder with its sender (`Document.fetch_over`), so what a
session does when the handle is used, this holder can do (`Session.deliver_unreceived`).
-/

namespace Inlay

open Exchange (sentBy)

namespace Exchange

variable {x₀ x : Exchange} {events : List (Nat × Event)}

/-- Whether nobody takes results any more: the fetch was given up, or no insert is pending. -/
def Over (x : Exchange) : Prop := x.ended = true ∨ x.document.pending = ∅

/-- When nobody takes results, the holders leave the document as it is, and all that they send stays
in the channel. -/
theorem Course.over (h : Course x₀ events x) (ho : x₀.Over) :
    x.Over ∧ x.document = x₀.document ∧ x.queue = x₀.queue ++ sentBy events := by
  induction h with
  | start => exact ⟨ho, rfl, (List.append_nil _).symm⟩
  | take _ hwaiting hpending _ ih =>
      rcases ih.1 with hended | hempty
      · rw [hwaiting] at hended
        cases hended
      · exact absurd hempty hpending
  | @move events x n p q e _ _ _ ih =>
      obtain ⟨hover, hdocument, hqueue⟩ := ih
      refine ⟨hover, hdocument, ?_⟩
      rw [sentBy_append, hqueue, List.append_assoc]
      exact congrArg (fun sent => x₀.queue ++ (sentBy events ++ sent)) (List.append_nil _).symm
  | leave _ ih => exact ⟨.inl rfl, ih.2⟩

end Exchange

/-- Behind a handle that the host was given stands a holder with its sender. -/
theorem Backed.exists_holder {f : Fetching} {x : Exchange} (h : Backed f x) {slot : Nat}
    (hs : slot ∈ f.handed) :
    ∃ (n : Nat) (label : String), x.holders[n]? = some (.handle { slot, label }) := by
  have hrel := h.holders
  rw [Fetching.charges_handed hs] at hrel
  obtain ⟨p, others, hp, -, hliving⟩ := Multiset.rel_cons_left.mp hrel
  obtain ⟨n, hn, -⟩ := exists_of_living hliving
  cases hp with
  | held slot label => exact ⟨n, label, hn⟩

/-- A fetch that is over has left its document to an exchange that is over, with a holder for every
handle that the host was given. -/
theorem Document.fetch_over {d : Document} (hp : d.phase = .tokenized) (disk : Disk)
    (horizon : Nat) : ∃ events x, Exchange.Course d.exchange events x ∧ x.Over ∧
      (∃ phase, (d.fetch disk horizon).1 = { x.document with phase }) ∧
      ∀ slot ∈ (d.fetch disk horizon).2.1, ∃ (n : Nat) (label : String),
        x.holders[n]? = some (.handle { slot, label }) := by
  obtain ⟨n, hr, -, hover⟩ := Fetching.run_run horizon (Fetching.ordered_beginFetch d disk)
  obtain ⟨sent, hcourse⟩ := hr.course
  obtain ⟨events, x, hx, -, hb⟩ := hcourse.backed
  have hne : ((d.beginFetch disk).run horizon).2 ≠ .closed := Fetching.run_ne_closed d disk horizon
  unfold fetch
  rw [hp]
  dsimp only
  split
  · rename_i hhalt
    have hpending := (Fetching.move_halt hover).mp hhalt
    rw [← hb.document] at hpending
    refine ⟨events, x, hx, .inr hpending, ⟨.fetchedAllInserts, ?_⟩, fun slot => hb.exists_holder⟩
    rw [hb.document]
    rfl
  · exact absurd ‹_› hne
  · exact ⟨events, _, hx.leave, .inl rfl, ⟨_, hb.document.symm⟩, fun slot => hb.exists_holder⟩
  · exact ⟨events, _, hx.leave, .inl rfl, ⟨_, hb.document.symm⟩, fun slot => hb.exists_holder⟩

namespace Session

theorem fetch_document (s : Session) (horizon : Nat) : (s.fetch horizon).1.document =
    (s.document.fetch s.outlet.disk (horizon - s.now)).1 := by
  unfold fetch
  dsimp only
  split <;> rfl

theorem fetch_handles (s : Session) (horizon : Nat) : (s.fetch horizon).1.handles =
    s.handles ++
      (s.document.fetch s.outlet.disk (horizon - s.now)).2.1.map (Handle.mk · false) := by
  unfold fetch
  dsimp only
  split <;> rfl

theorem of_deliver {s s' : Session} {n slot : Nat} {result : Delivered}
    (h : s.deliver n result = (s', some slot)) :
    s.handles[n]? = some ⟨slot, false⟩ ∧ s'.document = s.document := by
  unfold deliver at h
  split at h
  · rename_i hn
    cases h
    exact ⟨hn, rfl⟩
  · cases h

/-- **A handle that is used after its fetch sends its result to nobody.** What the fetch of a session
leaves is backed by an exchange that is over, where whatever the holders do leaves the document as
it is. What the session does when the host uses a handle is what a holder does there: it sends the
result, which stays in the channel. -/
theorem deliver_unreceived {s : Session} (hp : s.document.phase = .tokenized) (horizon : Nat) :
    ∃ events x, Exchange.Course s.document.exchange events x ∧
      (∃ phase, (s.fetch horizon).1.document = { x.document with phase }) ∧
      (∀ later x', Exchange.Course x later x' →
        x'.document = x.document ∧ x'.queue = x.queue ++ sentBy later) ∧
      ∀ n result slot s', s.handles.length ≤ n →
        (s.fetch horizon).1.deliver n result = (s', some slot) →
          s'.document = (s.fetch horizon).1.document ∧
          ∃ later x', Exchange.Course x later x' ∧ sentBy later = [⟨slot, result⟩] := by
  obtain ⟨events, x, hx, hover, hdocument, hholders⟩ :=
    Document.fetch_over hp s.outlet.disk (horizon - s.now)
  refine ⟨events, x, hx, s.fetch_document horizon ▸ hdocument,
    fun later x' h => (h.over hover).2, fun n result slot s' hn h => ?_⟩
  obtain ⟨hhandle, hleft⟩ := of_deliver h
  rw [fetch_handles, List.getElem?_append_right hn, List.getElem?_map] at hhandle
  obtain ⟨slot', hslot, heq⟩ := Option.map_eq_some_iff.mp hhandle
  cases heq
  obtain ⟨m, label, hm⟩ := hholders slot (List.mem_of_getElem? hslot)
  have hmove : Holder.Move x.ended (.handle { slot, label }) (.used result)
      (.acting [.send ⟨slot, result⟩, .release]) := by
    rw [← Delivery.deliver_ready (h := { slot, label }) rfl]
    exact .use _ result
  obtain ⟨later, hsent, hcourse⟩ := Exchange.Course.start.fulfil hm hmove rfl
  exact ⟨hleft, later, _, hcourse, hsent⟩

end Session

end Inlay
