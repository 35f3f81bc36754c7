import Mathlib.Algebra.Order.Group.Multiset
import Mathlib.Data.Multiset.Filter
import Inlay.Proofs.Inserts.Interruption

set_option autoImplicit false

/-! # Handles and the channel

The results of a fetch come over a channel that is open as long as somebody holds a sender of it:
the timers, and the handles of the inserts. A handle gives up its sender when it is used or let go
of, but not before it has sent something (`Delivery`). Here the holders are followed one by one,
wherever they are and in whatever order they act; what one does takes several steps, and others act
in between (`Exchange.Course`). So each handle sends one result (`Holder.moves_tale`). The channel is
closed when no holder is left, and by then every insert had its result, so that none is pending once
all results are taken (`Exchange.Course.settled`).

A fetch keeps its holders under other names: as tasks, as work that hangs and as handles that the
host was given. Whatever can happen to it can happen to them (`Fetching.Course.backed`). So the wait
never ends with a closed channel and inserts pending (`Fetching.Course.move_ne_closed`).
-/

namespace Inlay

/-! ## Handles -/

/-- What the holder of a sender does with it. -/
inductive SenderUse where
  | send (s : Settlement)
  /-- It gives up the sender. -/
  | release

/-- What an act puts into the channel. -/
def SenderUse.sent : SenderUse → List Settlement
  | .send s => [s]
  | .release => []

/-- A handle to deliver the result of an insert. -/
structure Delivery where
  slot : Nat
  label : String
  /-- Whether it still has its sender. -/
  ready : Bool := true

namespace Delivery

/-- Send a result, if the handle has a sender, which is given up with it. -/
def send (h : Delivery) (result : Delivered) : Delivery × List SenderUse :=
  if h.ready then ({ h with ready := false }, [.send ⟨h.slot, result⟩, .release]) else (h, [])

/-- Let go of a handle. One that was not used sends a failure. -/
def drop (h : Delivery) : List SenderUse :=
  let (h, acts) := if h.ready then h.send (.error (.abandoned h.label)) else (h, [])
  -- what a handle has goes with it
  acts ++ if h.ready then [.release] else []

/-- Use a handle, which is let go of with that. -/
def deliver (h : Delivery) (result : Delivered) : List SenderUse :=
  (h.send result).2 ++ (h.send result).1.drop

theorem deliver_ready {h : Delivery} (hr : h.ready = true) (result : Delivered) :
    h.deliver result = [.send ⟨h.slot, result⟩, .release] := by
  simp [deliver, send, drop, hr]

theorem drop_ready {h : Delivery} (hr : h.ready = true) :
    h.drop = [.send ⟨h.slot, .error (.abandoned h.label)⟩, .release] := by
  simp [drop, send, hr]

end Delivery

/-- Who holds a sender. -/
inductive Holder where
  /-- A timer that has not rung, with what it will send. -/
  | timer (s : Settlement)
  | handle (h : Delivery)
  /-- One that rang, was used or was let go of, with what it has still to do. -/
  | acting (acts : List SenderUse)

/-- A holder that has done all. -/
abbrev Holder.gone : Holder := .acting []

/-- What happens to a holder. -/
inductive Event where
  | rung
  | used (result : Delivered)
  | dropped
  | done (a : SenderUse)

/-- What an event puts into the channel. -/
def Event.sent : Event → List Settlement
  | .done a => a.sent
  | _ => []

/-- What can happen to a holder next, while the fetch goes on or when it is over. -/
inductive Holder.Move (ended : Bool) : Holder → Event → Holder → Prop where
  | ring (s : Settlement) : Move ended (.timer s) .rung (.acting [.send s, .release])
  | use (h : Delivery) (result : Delivered) :
    Move ended (.handle h) (.used result) (.acting (h.deliver result))
  | drop (h : Delivery) : Move ended (.handle h) .dropped (.acting h.drop)
  | act (a : SenderUse) (acts : List SenderUse) :
    Move ended (.acting (a :: acts)) (.done a) (.acting acts)
  /-- Timers that have not rung are let go of with the fetch. -/
  | cancel (s : Settlement) (h : ended = true) :
    Move ended (.timer s) .dropped (.acting [.release])

/-- What can happen to a holder from first to last. -/
inductive Holder.Moves (p : Holder) : List Event → Holder → Prop where
  | refl : Moves p [] p
  | step {events : List Event} {q q' : Holder} {e : Event} {ended : Bool} (h : Moves p events q)
    (hm : q.Move ended e q') : Moves p (events ++ [e]) q'

/-- What becomes of a handle: it is used or let go of, it sends one result, which is the one that
was delivered or else a failure, and then it gives up its sender. -/
inductive Delivery.Tale (h : Delivery) : List Event → Prop where
  | used (result : Delivered) :
    Tale h [.used result, .done (.send ⟨h.slot, result⟩), .done .release]
  | dropped :
    Tale h [.dropped, .done (.send ⟨h.slot, .error (.abandoned h.label)⟩), .done .release]

namespace Holder

variable {ended : Bool} {p q : Holder} {events : List Event} {h : Delivery}

/-- What was done to a handle is followed by what is still to do, as the first event says. -/
theorem moves_handle (hm : Moves (.handle h) events q) :
    events = [] ∧ q = .handle h ∨
      ∃ first acts rest done, Move false (.handle h) first (.acting acts) ∧
        events = first :: done ∧ q = .acting rest ∧ acts.map .done = done ++ rest.map .done := by
  induction hm with
  | refl => exact .inl ⟨rfl, rfl⟩
  | @step events q q' e ended _ hm ih =>
      rcases ih with ⟨rfl, rfl⟩ | ⟨first, acts, rest, done, hfirst, rfl, rfl, hacts⟩
      · cases hm with
        | use _ result => exact .inr ⟨_, _, _, [], .use h result, rfl, rfl, rfl⟩
        | drop _ => exact .inr ⟨_, _, _, [], .drop h, rfl, rfl, rfl⟩
      · cases hm with
        | act a rest =>
            refine .inr ⟨first, acts, rest, done ++ [.done a], hfirst, rfl, rfl, ?_⟩
            rw [hacts, List.append_assoc]
            rfl

/-- **A handle sends one result before it gives up its sender.** -/
theorem moves_tale (hr : h.ready = true) (hm : Moves (.handle h) events q) :
    ∃ tale, h.Tale tale ∧ events <+: tale ∧ (q = .gone ↔ events = tale) := by
  rcases moves_handle hm with ⟨rfl, rfl⟩ | ⟨first, acts, rest, done, hfirst, rfl, rfl, hacts⟩
  · exact ⟨_, .dropped, List.nil_prefix, nofun, nofun⟩
  · have htale : h.Tale (first :: acts.map .done) := by
      cases hfirst with
      | use _ result =>
          rw [Delivery.deliver_ready hr]
          exact .used result
      | drop _ =>
          rw [Delivery.drop_ready hr]
          exact .dropped
    refine ⟨_, htale, ?_, ?_⟩
    · rw [hacts]
      exact ⟨rest.map .done, rfl⟩
    · rw [hacts, List.cons.injEq, List.self_eq_append_right, List.map_eq_nil_iff, acting.injEq]
      exact ⟨fun he => ⟨rfl, he⟩, And.right⟩

end Holder

/-! ## What happens to all holders -/

/-- A document whose inserts are fetched, the results that were sent and not taken, and the holders
of senders in the order of their start. -/
structure Exchange where
  document : Document
  queue : List Settlement := []
  holders : List Holder
  /-- Whether nobody takes results any more. -/
  ended : Bool := false

namespace Exchange

/-- The events of one holder. -/
def eventsOf (events : List (Nat × Event)) (n : Nat) : List Event :=
  events.filterMap fun (m, e) => if m = n then some e else none

/-- The results that were sent. -/
def sentBy (events : List (Nat × Event)) : List Settlement := events.flatMap fun e => e.2.sent

/-- What can happen, and what happened to which holder, in order. Results are taken while some
insert is pending; a fetch may be given up before. -/
inductive Course (start : Exchange) : List (Nat × Event) → Exchange → Prop where
  | start : Course start [] start
  | take {events : List (Nat × Event)} {x : Exchange} {s : Settlement} {rest : List Settlement}
    (h : Course start events x) (ho : x.ended = false) (hp : x.document.pending ≠ ∅)
    (hq : x.queue = s :: rest) :
    Course start events { x with document := x.document.settle s, queue := rest }
  | move {events : List (Nat × Event)} {x : Exchange} {n : Nat} {p q : Holder} {e : Event}
    (h : Course start events x) (hn : x.holders[n]? = some p) (hm : p.Move x.ended e q) :
    Course start (events ++ [(n, e)])
      { x with holders := x.holders.set n q, queue := x.queue ++ e.sent }
  | leave {events : List (Nat × Event)} {x : Exchange} (h : Course start events x) :
    Course start events { x with ended := true }

/-- Whether all senders were given up and all results taken. -/
def Closed (x : Exchange) : Prop := x.queue = [] ∧ ∀ p ∈ x.holders, p = .gone

variable {x₀ x : Exchange} {events : List (Nat × Event)}

theorem eventsOf_concat (events : List (Nat × Event)) (m n : Nat) (e : Event) :
    eventsOf (events ++ [(m, e)]) n = eventsOf events n ++ if m = n then [e] else [] := by
  unfold eventsOf
  rw [List.filterMap_append]
  by_cases h : m = n
  · simp [h]
  · simp [h]

theorem sentBy_append (events later : List (Nat × Event)) :
    sentBy (events ++ later) = sentBy events ++ sentBy later := List.flatMap_append

theorem mem_sentBy {n : Nat} {s : Settlement} (h : .done (.send s) ∈ eventsOf events n) :
    s ∈ sentBy events := by
  obtain ⟨⟨m, e⟩, hmem, he⟩ := List.mem_filterMap.mp h
  refine List.mem_flatMap.mpr ⟨_, hmem, ?_⟩
  by_cases hm : m = n
  · simp only [hm, if_true, Option.some.injEq] at he
    rw [he]
    exact List.mem_singleton_self s
  · simp only [hm, if_false] at he
    cases he

/-- What happens to others leaves a holder as it is. -/
theorem Course.holder (h : Course x₀ events x) {n : Nat} {p : Holder}
    (hn : x₀.holders[n]? = some p) :
    ∃ q, x.holders[n]? = some q ∧ p.Moves (eventsOf events n) q := by
  induction h with
  | start => exact ⟨p, hn, .refl⟩
  | take _ _ _ _ ih => exact ih
  | @move events x m p' q' e _ hm hmove ih =>
      obtain ⟨q, hq, hmoves⟩ := ih
      rw [eventsOf_concat, List.getElem?_set]
      by_cases h : m = n
      · subst h
        obtain rfl := Option.some.inj (hm.symm.trans hq)
        have hlt := (List.getElem?_eq_some_iff.mp hq).1
        rw [if_pos rfl, if_pos rfl, if_pos hlt]
        exact ⟨q', rfl, hmoves.step hmove⟩
      · rw [if_neg h, if_neg h, List.append_nil]
        exact ⟨q, hq, hmoves⟩
  | leave _ ih => exact ih

/-- Results are taken in the order in which they were sent. -/
theorem Course.taken (h : Course x₀ events x) (hq : x₀.queue = []) :
    ∃ taken, sentBy events = taken ++ x.queue ∧ x.document = x₀.document.settleAll taken := by
  induction h with
  | start => exact ⟨[], hq.symm, rfl⟩
  | @take events x s rest _ _ _ hqueue ih =>
      obtain ⟨taken, hs, hd⟩ := ih
      refine ⟨taken ++ [s], ?_, ?_⟩
      · rw [hs, hqueue, List.append_assoc]
        rfl
      · dsimp only
        rw [hd, Document.settleAll_append]
        rfl
  | @move events x n p q e _ _ _ ih =>
      obtain ⟨taken, hs, hd⟩ := ih
      refine ⟨taken, ?_, hd⟩
      rw [sentBy_append, hs, List.append_assoc]
      exact congrArg (fun sent => taken ++ (x.queue ++ sent)) (List.append_nil _)
  | leave _ ih => exact ih

/-- A holder that sends a result and gives up its sender. -/
theorem Course.fulfil (h : Course x₀ events x) {n : Nat} {p : Holder} {e : Event} {s : Settlement}
    (hn : x.holders[n]? = some p) (hm : p.Move x.ended e (.acting [.send s, .release]))
    (he : e.sent = []) :
    ∃ later, sentBy later = [s] ∧ Course x₀ (events ++ later)
      { x with holders := x.holders.set n .gone, queue := x.queue ++ [s] } := by
  have hlt := (List.getElem?_eq_some_iff.mp hn).1
  have h₁ := h.move hn hm
  rw [he, List.append_nil] at h₁
  have h₂ := h₁.move (n := n) (by simp [hlt]) (.act (.send s) [.release])
  have h₃ := h₂.move (n := n) (by simp [hlt]) (.act .release [])
  refine ⟨[(n, e), (n, .done (.send s)), (n, .done .release)], ?_, ?_⟩
  · rw [sentBy, List.flatMap_cons, he]
    rfl
  · simpa [Event.sent, SenderUse.sent] using h₃

/-- When the channel is closed, every handle has sent a result. -/
theorem Course.delivered (h : Course x₀ events x) (hc : x.Closed) {n : Nat} {handle : Delivery}
    (hn : x₀.holders[n]? = some (.handle handle)) (hr : handle.ready = true) :
    ∃ result, ⟨handle.slot, result⟩ ∈ sentBy events := by
  obtain ⟨q, hxn, hmoves⟩ := h.holder hn
  obtain ⟨tale, htale, -, hend⟩ := Holder.moves_tale hr hmoves
  have hevents := hend.mp (hc.2 q (List.mem_of_getElem? hxn))
  cases htale with
  | used result => exact ⟨result, mem_sentBy (n := n) (by simp [hevents])⟩
  | dropped =>
      exact ⟨.error (.abandoned handle.label), mem_sentBy (n := n) (by simp [hevents])⟩

/-- When the channel is closed, every result was taken. -/
theorem Course.all_taken (h : Course x₀ events x) (hq : x₀.queue = []) (hc : x.Closed) :
    x.document = x₀.document.settleAll (sentBy events) := by
  obtain ⟨taken, hsent, hd⟩ := h.taken hq
  rw [hsent, hc.1, List.append_nil, hd]

end Exchange

/-! ## The holders of a fetch -/

/-- The holders that are started for an insert: the timer, if its time is limited, and the handle,
which its work is given. -/
def PendingInsert.holders (insert : PendingInsert) (standard : Option Nat) (slot : Nat) :
    List Holder :=
  ((insert.limit? standard).map fun limit => .timer ⟨slot, insert.timeout limit⟩).toList ++
    [.handle { slot, label := insert.tag.label }]

/-- Begin to fetch the inserts of a document. -/
def Document.exchange (d : Document) : Exchange where
  document := { d with phase := .fetchingInserts }
  holders := d.pending.toList.flatMap fun (slot, insert) =>
    insert.holders d.options.timeout slot

namespace Document

variable (d : Document)

/-- Every handle of a document is started with its sender. -/
theorem exchange_ready {h : Delivery} (hmem : .handle h ∈ d.exchange.holders) : h.ready = true := by
  obtain ⟨⟨slot, insert⟩, -, hmem⟩ := List.mem_flatMap.mp hmem
  unfold PendingInsert.holders at hmem
  rcases List.mem_append.mp hmem with htimer | hhandle
  · obtain ⟨limit, -, ht⟩ := Option.map_eq_some_iff.mp (Option.mem_toList.mp htimer)
    cases ht
  · cases List.mem_singleton.mp hhandle
    rfl

/-- Every pending insert has a handle. -/
theorem exists_handle {i : Nat} {insert : PendingInsert} (hi : d.pending[i]? = some insert) :
    ∃ n : Nat, d.exchange.holders[n]? =
      some (.handle { slot := i, label := insert.tag.label }) := by
  refine List.mem_iff_getElem?.mp (List.mem_flatMap.mpr ⟨(i, insert), ?_, ?_⟩)
  · exact Std.ExtTreeMap.mem_toList_iff_getElem?_eq_some.mpr hi
  · exact List.mem_append_right _ (List.mem_singleton_self _)

end Document

/-- **A closed channel leaves no insert pending.** -/
theorem Exchange.Course.settled {d : Document} {events : List (Nat × Event)} {x : Exchange}
    (h : Course d.exchange events x) (hc : x.Closed) : x.document.pending = ∅ := by
  rw [h.all_taken rfl hc]
  refine Document.settleAll_pending_empty fun i insert hi => ?_
  obtain ⟨n, hn⟩ := d.exists_handle hi
  obtain ⟨result, hmem⟩ := h.delivered hc hn rfl
  exact ⟨_, hmem, rfl⟩

/-! ## The fetch of the program -/

/-- What keeps the channel of a fetch open: a task, or a handle that its work or the host holds. -/
inductive Charge where
  | task (t : Task)
  | held (slot : Nat)

/-- Whether a holder is what a charge stands for. -/
inductive Charge.Bears : Charge → Holder → Prop where
  | timer {t : Task} {result : Delivered} (h : t.deed = .send result) :
    Bears (.task t) (.timer ⟨t.slot, result⟩)
  | work (t : Task) (label : String) : Bears (.task t) (.handle { slot := t.slot, label })
  | held (slot : Nat) (label : String) : Bears (.held slot) (.handle { slot, label })

namespace Charge.Bears

variable {t : Task} {slot : Nat} {result : Delivered} {p : Holder}

/-- A handle comes to any result by its use, and to the failure when it is let go of. -/
theorem move_handle {h : Delivery} (hr : h.ready = true) (result : Delivered) : ∃ e, e.sent = [] ∧
    Holder.Move false (.handle h) e (.acting [.send ⟨h.slot, result⟩, .release]) := by
  by_cases hresult : result = .error (.abandoned h.label)
  · refine ⟨.dropped, rfl, ?_⟩
    rw [hresult, ← Delivery.drop_ready hr]
    exact .drop h
  · refine ⟨.used result, rfl, ?_⟩
    rw [← Delivery.deliver_ready hr]
    exact .use h result

/-- Who is a task that sends a result can send it. -/
theorem move_task (h : Bears (.task t) p) (hd : t.deed = .send result) : ∃ e, e.sent = [] ∧
    p.Move false e (.acting [.send ⟨t.slot, result⟩, .release]) := by
  cases h with
  | timer hd' =>
      cases hd.symm.trans hd'
      exact ⟨.rung, rfl, .ring _⟩
  | work t label => exact move_handle rfl result

theorem move_held (h : Bears (.held slot) p) (result : Delivered) : ∃ e, e.sent = [] ∧
    p.Move false e (.acting [.send ⟨slot, result⟩, .release]) := by
  cases h with
  | held slot label => exact move_handle rfl result

/-- A task that sends nothing is no timer. -/
theorem hand_over (h : Bears (.task t) p) (hd : t.deed = .handOver) : Bears (.held t.slot) p := by
  cases h with
  | timer hd' => cases hd.symm.trans hd'
  | work t label => exact .held t.slot label

end Charge.Bears

/-- Whether a holder has something left to do. -/
def Holder.live : Holder → Bool
  | .acting [] => false
  | _ => true

theorem Holder.eq_gone {p : Holder} (h : p.live = false) : p = .gone := by
  match p with
  | .acting [] => rfl

/-- Those of some holders that have something left to do, in any order. -/
def living (holders : List Holder) : Multiset Holder :=
  (holders : Multiset Holder).filter fun p => p.live = true

/-- Some tasks and handles, in any order. -/
def chargesOf (tasks : List Task) (held : List Nat) : Multiset Charge :=
  (tasks : Multiset Task).map .task + (held : Multiset Nat).map .held

/-- What keeps the channel of a fetch open. -/
def Fetching.charges (f : Fetching) : Multiset Charge := chargesOf f.tasks (f.hung ++ f.handed)

/-- A fetch, and the same with its holders followed one by one. -/
structure Backed (f : Fetching) (x : Exchange) : Prop where
  document : x.document = f.document
  queue : x.queue = f.channel
  waiting : x.ended = false
  holders : Multiset.Rel Charge.Bears f.charges (living x.holders)

/-! ### Holders in any order -/

theorem coe_middle {α : Type} (before after : List α) (a : α) :
    (↑(before ++ a :: after) : Multiset α) = a ::ₘ ↑(before ++ after) :=
  Multiset.coe_eq_coe.mpr List.perm_middle

theorem chargesOf_perm {tasks tasks' : List Task} {held held' : List Nat}
    (ht : tasks.Perm tasks') (hh : held.Perm held') :
    chargesOf tasks held = chargesOf tasks' held' := by
  unfold chargesOf
  rw [Multiset.coe_eq_coe.mpr ht, Multiset.coe_eq_coe.mpr hh]

theorem chargesOf_task (t : Task) (tasks : List Task) (held : List Nat) :
    chargesOf (t :: tasks) held = .task t ::ₘ chargesOf tasks held := by
  unfold chargesOf
  rw [← Multiset.cons_coe, Multiset.map_cons, Multiset.cons_add]

theorem chargesOf_held (slot : Nat) (tasks : List Task) (held : List Nat) :
    chargesOf tasks (slot :: held) = .held slot ::ₘ chargesOf tasks held := by
  unfold chargesOf
  rw [← Multiset.cons_coe, Multiset.map_cons, Multiset.add_cons]

theorem chargesOf_append (tasks tasks' : List Task) (held held' : List Nat) :
    chargesOf (tasks ++ tasks') (held ++ held') =
      chargesOf tasks held + chargesOf tasks' held' := by
  unfold chargesOf
  rw [← Multiset.coe_add, ← Multiset.coe_add, Multiset.map_add, Multiset.map_add,
    add_add_add_comm]

/-- A holder that has done all is one less. -/
theorem living_set {holders : List Holder} {n : Nat} {p : Holder} (hn : holders[n]? = some p)
    (hp : p.live = true) : living holders = p ::ₘ living (holders.set n .gone) := by
  obtain ⟨hlt, hget⟩ := List.getElem?_eq_some_iff.mp hn
  obtain ⟨before, after, hl, -, hset⟩ :
      ∃ before after, holders = before ++ holders[n] :: after ∧ before.length = n ∧
        holders.set n .gone = before ++ .gone :: after := List.exists_of_set hlt
  rw [hget] at hl
  have hgone : ¬ Holder.gone.live = true := Bool.false_ne_true
  unfold living
  rw [hset, hl, coe_middle, coe_middle,
    Multiset.filter_cons_of_pos (p := fun q : Holder => q.live = true) _ hp,
    Multiset.filter_cons_of_neg (p := fun q : Holder => q.live = true) _ hgone]

theorem living_append (holders holders' : List Holder) :
    living (holders ++ holders') = living holders + living holders' := by
  unfold living
  rw [← Multiset.coe_add, Multiset.filter_add]

/-- Who is among those that have something left to do can be found. -/
theorem exists_of_living {holders : List Holder} {p : Holder} {rest : Multiset Holder}
    (h : living holders = p ::ₘ rest) :
    ∃ n : Nat, holders[n]? = some p ∧ living (holders.set n .gone) = rest := by
  have hmem : p ∈ living holders := h ▸ Multiset.mem_cons_self p rest
  obtain ⟨hp, hlive⟩ := Multiset.mem_filter.mp hmem
  obtain ⟨n, hn⟩ := List.mem_iff_getElem?.mp (Multiset.mem_coe.mp hp)
  refine ⟨n, hn, ?_⟩
  rw [living_set hn hlive] at h
  exact (Multiset.cons_inj_right p).mp h

theorem living_eq_zero {holders : List Holder} (h : living holders = 0) :
    ∀ p ∈ holders, p = .gone := by
  intro p hp
  apply Holder.eq_gone
  exact Bool.eq_false_iff.mpr (Multiset.filter_eq_nil.mp h p (Multiset.mem_coe.mpr hp))

namespace Fetching

variable {f g : Fetching} {x x₀ : Exchange}

theorem charges_task {before after : List Task} {t : Task} (ht : f.tasks = before ++ t :: after) :
    f.charges = .task t ::ₘ charges { f with tasks := before ++ after } := by
  unfold charges
  rw [ht, chargesOf_perm List.perm_middle (.refl _), chargesOf_task]

theorem charges_handed {slot : Nat} (hs : slot ∈ f.handed) :
    f.charges = .held slot ::ₘ charges { f with handed := f.handed.erase slot } := by
  have hperm : (f.hung ++ f.handed).Perm (slot :: (f.hung ++ f.handed.erase slot)) :=
    ((List.perm_cons_erase hs).append_left _).trans List.perm_middle
  unfold charges
  rw [chargesOf_perm (.refl _) hperm, chargesOf_held]

/-- A task that hands over goes on as a handle of the host. -/
theorem charges_handOver (f : Fetching) (slot : Nat) :
    charges { f with handed := f.handed ++ [slot] } = .held slot ::ₘ f.charges := by
  have hperm : (f.hung ++ (f.handed ++ [slot])).Perm (slot :: (f.hung ++ f.handed)) := by
    rw [← List.append_assoc]
    exact List.perm_append_singleton _ _
  unfold charges
  rw [chargesOf_perm (.refl _) hperm, chargesOf_held]

end Fetching

namespace Backed

variable {f : Fetching} {x x₀ : Exchange} {events : List (Nat × Event)}

/-- A charge that is settled by a result is a holder that sends it. -/
theorem fulfil (h : Backed f x) (hc : Exchange.Course x₀ events x) {charge : Charge}
    {rest : Multiset Charge} {s : Settlement} (hcharge : f.charges = charge ::ₘ rest)
    (hsend : ∀ p, charge.Bears p → ∃ e, e.sent = [] ∧
      p.Move false e (.acting [.send s, .release])) :
    ∃ later x', Exchange.Course x₀ (events ++ later) x' ∧ Exchange.sentBy later = [s] ∧
      ∀ f' : Fetching, f'.document = f.document → f'.channel = f.channel ++ [s] →
        f'.charges = rest → Backed f' x' := by
  have hrel := h.holders
  rw [hcharge] at hrel
  obtain ⟨p, others, hp, hothers, hliving⟩ := Multiset.rel_cons_left.mp hrel
  obtain ⟨n, hn, hset⟩ := exists_of_living hliving
  obtain ⟨e, he, hmove⟩ := hsend p hp
  obtain ⟨later, hsent, hcourse⟩ := hc.fulfil hn (h.waiting ▸ hmove) he
  refine ⟨later, _, hcourse, hsent, fun f' hdoc hchannel hrest => ?_⟩
  refine ⟨h.document.trans hdoc.symm, ?_, h.waiting, ?_⟩
  · rw [hchannel, h.queue]
  · rw [hrest, hset]
    exact hothers

/-- Where a task hands over, the holder stays who it is, and its charge gets another name. -/
theorem handOver (h : Backed f x) {t : Task} {rest : Multiset Charge}
    (hcharge : f.charges = .task t ::ₘ rest) (hd : t.deed = .handOver) {f' : Fetching}
    (hdoc : f'.document = f.document) (hchannel : f'.channel = f.channel)
    (hrest : f'.charges = .held t.slot ::ₘ rest) : Backed f' x := by
  refine ⟨h.document.trans hdoc.symm, h.queue.trans hchannel.symm, h.waiting, ?_⟩
  have hrel := h.holders
  rw [hcharge] at hrel
  obtain ⟨p, others, hp, hothers, hliving⟩ := Multiset.rel_cons_left.mp hrel
  rw [hrest, hliving]
  exact .cons (hp.hand_over hd) hothers

end Backed

/-! ### The start -/

namespace PendingInsert

variable (insert : PendingInsert) (standard : Option Nat)
  (load : Path → Encoding → Except LoadError String) (slot : Nat)

theorem timer_bears : Multiset.Rel Charge.Bears
    (chargesOf (insert.timer? standard slot).toList [])
    (living ((insert.limit? standard).map fun limit =>
      .timer ⟨slot, insert.timeout limit⟩).toList) := by
  unfold timer?
  cases insert.limit? standard with
  | none => exact .zero
  | some limit => exact .cons (.timer rfl) .zero

/-- The handle of an insert is with the task of its work, or with work that hangs. -/
theorem work_bears : Multiset.Rel Charge.Bears
    (chargesOf (insert.work? load slot).toList (if insert.hangs then [slot] else []))
    (living [.handle { slot, label := insert.tag.label }]) := by
  have htask (t : Task) (ht : t.slot = slot) : Multiset.Rel Charge.Bears (chargesOf [t] [])
      (living [.handle { slot, label := insert.tag.label }]) := by
    subst ht
    exact .cons (.work t _) .zero
  unfold work? hangs
  cases insert.fetch.work with
  | hang => exact .cons (.held slot _) .zero
  | hold => exact htask _ rfl
  | deliver delay result => exact htask _ rfl
  | load delay path encoding => exact htask _ rfl
  | abandon delay => exact htask _ rfl

theorem bears : Multiset.Rel Charge.Bears
    (chargesOf (insert.tasks standard load slot) (if insert.hangs then [slot] else []))
    (living (insert.holders standard slot)) := by
  unfold tasks holders
  rw [living_append, ← List.nil_append (if insert.hangs then [slot] else []), chargesOf_append]
  exact (insert.timer_bears standard slot).add (insert.work_bears load slot)

end PendingInsert

theorem bears_inserts (standard : Option Nat) (load : Path → Encoding → Except LoadError String)
    (inserts : List (Nat × PendingInsert)) : Multiset.Rel Charge.Bears
      (chargesOf (inserts.flatMap fun (slot, insert) => insert.tasks standard load slot)
        ((inserts.filter fun x => x.2.hangs).map Prod.fst))
      (living (inserts.flatMap fun (slot, insert) => insert.holders standard slot)) := by
  induction inserts with
  | nil => exact .zero
  | cons x inserts ih =>
      have hheld : ((x :: inserts).filter fun x => x.2.hangs).map Prod.fst =
          (if x.2.hangs then [x.1] else []) ++
            (inserts.filter fun x => x.2.hangs).map Prod.fst := by
        rw [List.filter_cons]
        split <;> rfl
      rw [List.flatMap_cons, List.flatMap_cons, hheld, living_append, chargesOf_append]
      exact (x.2.bears standard load x.1).add ih

/-- A fetch begins with the holders that are started. -/
theorem backed_begin (d : Document) (disk : Disk) : Backed (d.beginFetch disk) d.exchange where
  document := rfl
  queue := rfl
  waiting := rfl
  holders := by
    unfold Fetching.charges
    rw [Document.beginFetch, List.append_nil, chargesOf_perm (Task.inOrder_perm _) (.refl _)]
    exact bears_inserts _ _ _

/-! ### The course -/

open Exchange in
/-- **Whatever can happen to a fetch can happen to its holders,** and the same results are sent. -/
theorem Fetching.Course.backed {d : Document} {disk : Disk} {sent : List Settlement} {f : Fetching}
    (h : Fetching.Course (d.beginFetch disk) sent f) :
    ∃ events x, Exchange.Course d.exchange events x ∧ sentBy events = sent ∧ Backed f x := by
  induction h with
  | start => exact ⟨[], _, .start, rfl, backed_begin d disk⟩
  | @receive sent rest s g _ hp hchannel ih =>
      obtain ⟨events, x, hcourse, hsent, hb⟩ := ih
      refine ⟨events, _, hcourse.take hb.waiting ?_ (hb.queue.trans hchannel), hsent, ?_⟩
      · rw [hb.document]
        exact hp
      · exact ⟨congrArg (·.settle s) hb.document, rfl, hb.waiting, hb.holders⟩
  | @complete sent before after t g _ _ ht _ ih =>
      obtain ⟨events, x, hcourse, hsent, hb⟩ := ih
      cases hd : t.deed with
      | send result =>
          obtain ⟨later, x', hcourse', hlater, hb'⟩ :=
            hb.fulfil hcourse (charges_task ht) fun p hp => hp.move_task hd
          refine ⟨_, x', hcourse', ?_, ?_⟩
          · rw [sentBy_append, hsent, hlater, Task.sent, hd]
          · rw [Fetching.complete, hd]
            exact hb' _ rfl rfl rfl
      | handOver =>
          refine ⟨events, x, hcourse, ?_, ?_⟩
          · rw [hsent, Task.sent, hd, List.append_nil]
          · rw [Fetching.complete, hd]
            exact hb.handOver (charges_task ht) hd rfl rfl (charges_handOver _ _)
  | @deliver sent slot g _ hs result ih =>
      obtain ⟨events, x, hcourse, hsent, hb⟩ := ih
      obtain ⟨later, x', hcourse', hlater, hb'⟩ :=
        hb.fulfil hcourse (charges_handed hs) fun p hp => hp.move_held result
      exact ⟨_, x', hcourse', by rw [sentBy_append, hsent, hlater], hb' _ rfl rfl rfl⟩
  | wait _ _ ih =>
      obtain ⟨events, x, hcourse, hsent, hb⟩ := ih
      exact ⟨events, x, hcourse, hsent, hb.document, hb.queue, hb.waiting, hb.holders⟩

namespace Fetching

/-- A channel without results, tasks and handles is closed. -/
theorem closed_of_backed {f : Fetching} {x : Exchange} (h : Backed f x) (hc : f.channel = [])
    (ht : f.tasks = []) (hh : f.hung = []) (hd : f.handed = []) : x.Closed := by
  have hrel := h.holders
  unfold charges at hrel
  rw [ht, hh, hd] at hrel
  exact ⟨h.queue.trans hc, living_eq_zero (Multiset.rel_zero_left.mp hrel)⟩

theorem of_move_closed {f : Fetching} {horizon : Nat} (h : f.move horizon = .over .closed) :
    f.tasks = [] ∧ f.hung = [] ∧ f.handed = [] := by
  unfold move at h
  split at h
  · cases h
  · split at h
    · cases h
    · split at h
      · rename_i ht
        split at h
        · rename_i hnone
          rw [Bool.and_eq_true, List.isEmpty_iff, List.isEmpty_iff] at hnone
          exact ⟨ht, hnone⟩
        · cases h
      · split at h <;> cases h

/-- **The wait never ends with inserts pending and nobody left to send.** -/
theorem Course.move_ne_closed {d : Document} {disk : Disk} {sent : List Settlement} {f : Fetching}
    (h : Course (d.beginFetch disk) sent f) (horizon : Nat) : f.move horizon ≠ .over .closed := by
  intro hover
  obtain ⟨hchannel, hpending⟩ := waiting_of_over hover nofun
  obtain ⟨ht, hh, hd⟩ := of_move_closed hover
  obtain ⟨events, x, hx, -, hb⟩ := h.backed
  refine hpending ?_
  rw [← hb.document]
  exact hx.settled (closed_of_backed hb hchannel ht hh hd)

theorem run_ne_closed (d : Document) (disk : Disk) (horizon : Nat) :
    ((d.beginFetch disk).run horizon).2 ≠ .closed := by
  intro hclosed
  obtain ⟨n, hr, -, hover⟩ := run_run horizon (ordered_beginFetch d disk)
  rw [hclosed] at hover
  obtain ⟨sent, hcourse⟩ := hr.course
  exact hcourse.move_ne_closed horizon hover

end Fetching

namespace Document

open Exchange (eventsOf sentBy)

/-- **Every handle delivers once, and the channel is not closed too early.** Each pending insert has
a handle. Whatever happens to the holders of senders, and in whatever order: a handle that is used
or let go of sends one result for its insert, the delivered one or else the failure, and gives up
its sender after that. So once all senders are given up and all results taken, no insert is pending.
All that can happen to a fetch is of this kind. So its wait never ends with a closed channel and
inserts pending, and what would be done with these is never done. -/
theorem deliver_once (d : Document) (disk : Disk) :
    (∀ (i : Nat) (insert : PendingInsert), d.pending[i]? = some insert →
      ∃ n : Nat, d.exchange.holders[n]? = some (.handle ⟨i, insert.tag.label, true⟩)) ∧
    (∀ events x, Exchange.Course d.exchange events x →
      (∀ (n : Nat) (h : Delivery), d.exchange.holders[n]? = some (.handle h) →
        ∃ tale, h.Tale tale ∧ eventsOf events n <+: tale ∧
          (x.holders[n]? = some .gone ↔ eventsOf events n = tale)) ∧
      (x.Closed → x.document.pending = ∅)) ∧
    (∀ sent f, Fetching.Course (d.beginFetch disk) sent f →
      (∃ events x, Exchange.Course d.exchange events x ∧ sentBy events = sent ∧ Backed f x) ∧
        ∀ horizon, f.move horizon ≠ .over .closed) ∧
    ∀ horizon, ((d.beginFetch disk).run horizon).2 ≠ .closed := by
  refine ⟨fun _ _ => d.exists_handle, fun events x hc => ⟨fun n h hn => ?_, hc.settled⟩,
    fun _ _ hc => ⟨hc.backed, hc.move_ne_closed⟩, Fetching.run_ne_closed d disk⟩
  obtain ⟨q, hq, hmoves⟩ := hc.holder hn
  obtain ⟨tale, htale, hpre, hend⟩ :=
    Holder.moves_tale (d.exchange_ready (List.mem_of_getElem? hn)) hmoves
  refine ⟨tale, htale, hpre, ?_⟩
  rw [hq, Option.some.injEq]
  exact hend

/-- A document with an insert that has no limit and whose work ends without delivering. -/
def forsaken : Document where
  phase := .tokenized
  options := { timeout := none }
  segments := [.pending]
  pending := (∅ : Slots PendingInsert).insert 0
    ⟨⟨"!--#a", some "a", [], ⟨1, 1⟩, ""⟩, { work := .abandon 0 }⟩

/-- The handle that is let go of settles its insert. -/
theorem forsaken_delivers : ∃ events x, Exchange.Course forsaken.exchange events x ∧ x.Closed ∧
    eventsOf events 0 = [.dropped,
      .done (.send ⟨0, .error (.abandoned "cmd \"a\" @ 1:1")⟩), .done .release] ∧
    x.document.pending = ∅ := by
  let label := "cmd \"a\" @ 1:1"
  have h₀ : Exchange.Course forsaken.exchange [] forsaken.exchange := .start
  have h₁ := h₀.move (n := 0) rfl (.drop ⟨0, label, true⟩)
  have h₂ := h₁.move (n := 0) rfl (.act (.send ⟨0, .error (.abandoned label)⟩) [.release])
  have h₃ := h₂.move (n := 0) rfl (.act .release [])
  have hp : forsaken.pending ≠ ∅ := Slots.ne_empty (Slots.get_insert _ 0 0 _)
  have h₄ := h₃.take rfl hp rfl
  have hgone : ∀ p ∈ [Holder.gone], p = .gone := fun _ => List.mem_singleton.mp
  exact ⟨_, _, h₄, ⟨rfl, hgone⟩, rfl, ((deliver_once forsaken {}).2.1 _ _ h₄).2 ⟨rfl, hgone⟩⟩

end Document

end Inlay
