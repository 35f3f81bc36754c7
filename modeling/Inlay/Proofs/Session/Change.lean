import Inlay.Proofs.Inserts.Settling
import Inlay.Session.Drive
import Mathlib.Logic.Relation

set_option autoImplicit false

/-! # Changes of a document

All that ever happens to a document is one of a few changes, each of which belongs to a phase. `Act`
has those that operations make, `Change` also those of the rendering, of the queues and of the host.
Every operation of a session makes no change, or one (`perform_acts`, `advance_changes`). What holds
of every change then holds of every operation, and the operations need not be looked at again.

A fetch is one change, whatever happened while it ran: what counts are the settlements that were
taken and whether an insert was left pending.
-/

namespace Inlay

open Relation (ReflTransGen)

/-- What every step preserves, any chain of steps preserves. -/
theorem preserved_of_steps {α : Type} {r : α → α → Prop} {a b : α} (P : α → Prop)
    (h : ReflTransGen r a b) (hr : ∀ {c d : α}, r c d → P c → P d) (ha : P a) : P b := by
  induction h with
  | refl => exact ha
  | tail _ hcd ih => exact hr hcd ih

/-! ## What a fetch comes to -/

theorem filtered_error (filter : Option (String → Delivered)) (e : FetchError) :
    filtered filter (.error e) = .error e := by
  cases filter <;> rfl

namespace Document

theorem settleAll_withPhase (d : Document) (phase : Phase) (ss : List Settlement) :
    { d with phase }.settleAll ss = { d.settleAll ss with phase } := by
  induction ss generalizing d with
  | nil => rfl
  | cons s ss ih => rw [settleAll_cons, settle_withPhase, ih, settleAll_cons]

/-- The settlement by which an insert is given up. -/
def abandonment (x : Nat × PendingInsert) : Settlement :=
  ⟨x.1, .error (.abandoned x.2.tag.label)⟩

/-- Record that some inserts were given up. -/
def recordAbandoned (d : Document) (inserts : List (Nat × PendingInsert)) : Document :=
  inserts.foldl (fun d x => d.recordFailure x.1 ⟨x.2.tag, .abandoned x.2.tag.label⟩) d

theorem abandonPending_record (d : Document) :
    d.abandonPending = { d with pending := ∅ }.recordAbandoned d.pending.toList :=
  Std.ExtTreeMap.foldl_eq_foldl_toList

theorem recordAbandoned_pending (d : Document) (inserts : List (Nat × PendingInsert)) :
    (d.recordAbandoned inserts).pending = d.pending := by
  induction inserts generalizing d with
  | nil => rfl
  | cons x inserts ih => exact ih _

theorem settle_abandonment {d : Document} {x : Nat × PendingInsert}
    (h : d.pending[x.1]? = some x.2) :
    d.settle (abandonment x) =
      { d with pending := d.pending.erase x.1 }.recordFailure x.1
        ⟨x.2.tag, .abandoned x.2.tag.label⟩ := by
  unfold settle abandonment
  dsimp only
  rw [h]
  dsimp only
  rw [filtered_error]

/-- To settle inserts by failures is to record the failures. -/
theorem settleAll_abandonments {d : Document} {inserts : List (Nat × PendingInsert)}
    (hi : ∀ x ∈ inserts, d.pending[x.1]? = some x.2)
    (hd : inserts.Pairwise fun x y => x.1 ≠ y.1) :
    ∃ pending, d.settleAll (inserts.map abandonment) =
      { { d with pending := ∅ }.recordAbandoned inserts with pending } := by
  induction inserts generalizing d with
  | nil => exact ⟨d.pending, rfl⟩
  | cons x inserts ih =>
      obtain ⟨hx, hd⟩ := List.pairwise_cons.mp hd
      have hs := settle_abandonment (hi x List.mem_cons_self)
      have hrest : ∀ y ∈ inserts, (d.settle (abandonment x)).pending[y.1]? = some y.2 := by
        intro y hy
        rw [settle_pending]
        exact (if_neg (hx y hy)).trans (hi y (List.mem_cons_of_mem _ hy))
      obtain ⟨pending, h⟩ := ih hrest hd
      refine ⟨pending, ?_⟩
      rw [List.map_cons, settleAll_cons, h, hs]
      rfl

theorem firstResult_isSome {ss : List Settlement} {s : Settlement} (h : s ∈ ss) :
    (firstResult ss s.slot).isSome := by
  unfold firstResult
  rw [Option.isSome_map, List.find?_isSome]
  exact ⟨s, h, by simp⟩

/-- With a settlement for each of them, no insert is left pending. -/
theorem settleAll_pending_empty {d : Document} {ss : List Settlement}
    (h : ∀ (i : Nat) (insert : PendingInsert), d.pending[i]? = some insert →
      ∃ s ∈ ss, s.slot = i) : (d.settleAll ss).pending = ∅ := by
  apply Std.ExtTreeMap.ext_getElem?
  intro i
  rw [Slots.get_empty, settleAll_pending]
  cases hi : d.pending[i]? with
  | none => split <;> rfl
  | some insert =>
      obtain ⟨s, hs, rfl⟩ := h i insert hi
      obtain ⟨result, hr⟩ := Option.isSome_iff_exists.mp (firstResult_isSome hs)
      rw [settled?_eq hi hr]
      rfl

/-- To give up the pending inserts is to settle each of them by a failure. -/
theorem abandonPending_eq (d : Document) :
    d.abandonPending = d.settleAll (d.pending.toList.map abandonment) ∧
      d.abandonPending.pending = ∅ := by
  have hmem (i : Nat) (insert : PendingInsert) :
      (i, insert) ∈ d.pending.toList ↔ d.pending[i]? = some insert :=
    Std.ExtTreeMap.mem_toList_iff_getElem?_eq_some
  have hp : (d.settleAll (d.pending.toList.map abandonment)).pending = ∅ := by
    refine settleAll_pending_empty fun i insert hi => ?_
    exact ⟨_, List.mem_map_of_mem ((hmem i insert).mpr hi), rfl⟩
  obtain ⟨pending, h⟩ := settleAll_abandonments (d := d) (fun x hx => (hmem x.1 x.2).mp hx)
    (Std.ExtTreeMap.distinct_keys_toList.imp fun hne heq => hne (by rw [heq]; simp))
  have hr := recordAbandoned_pending { d with pending := ∅ } d.pending.toList
  rw [abandonPending_record]
  rw [h] at hp ⊢
  generalize { d with pending := ∅ }.recordAbandoned d.pending.toList = recorded at hp hr ⊢
  exact ⟨by rw [show pending = recorded.pending from hp.trans hr.symm], hr⟩

end Document

namespace Fetching

/-- A move of a fetch takes at most one settlement. -/
theorem move_settles {horizon : Nat} {f f' : Fetching} (h : f.move horizon = .again f') :
    ∃ ss, f'.document = f.document.settleAll ss := by
  unfold move at h
  split at h
  · cases h
  · split at h
    · cases h
      exact ⟨[_], rfl⟩
    · split at h
      · cases h
      · split at h
        · cases h
        · cases h
          refine ⟨[], ?_⟩
          unfold complete
          split <;> rfl

theorem move_halt {horizon : Nat} {f : Fetching} {halt : Halt} (h : f.move horizon = .over halt) :
    halt = .settled ↔ f.document.pending = ∅ := by
  unfold move at h
  rw [← Std.ExtTreeMap.isEmpty_iff]
  split at h
  · cases h
    simp only [*]
  · rename_i hp
    have hne : halt ≠ .settled := by
      split at h
      · cases h
      · split at h
        · cases h
          split <;> simp
        · split at h <;> cases h
          simp
    exact iff_of_false hne hp

theorem run_over {horizon : Nat} {f : Fetching} {halt : Halt} (h : f.move horizon = .over halt) :
    f.run horizon = (f, halt) := by
  rw [run]
  split
  · rename_i h'
    cases h.symm.trans h'
  · rename_i h'
    cases h.symm.trans h'
    rfl

/-- What a fetch leaves is what its settlements leave, and it halts for no other reason if and only
if no insert is pending. -/
theorem run_settles (horizon : Nat) (f : Fetching) :
    (∃ ss, (f.run horizon).1.document = f.document.settleAll ss) ∧
      ((f.run horizon).2 = .settled ↔ (f.run horizon).1.document.pending = ∅) := by
  fun_induction run horizon f with
  | case1 f f' hm ih =>
      obtain ⟨⟨ss, hs⟩, hh⟩ := ih
      obtain ⟨ss', hs'⟩ := move_settles hm
      exact ⟨⟨ss' ++ ss, by rw [hs, hs', Document.settleAll_append]⟩, hh⟩
  | case2 f halt hm => exact ⟨⟨[], rfl⟩, move_halt hm⟩

end Fetching

/-! ## The waiting hooks -/

namespace Document

/-- The hooks that wait, in the order in which they are started if none is queued between. -/
def waiting (d : Document) : List Script := d.postHooks ++ d.lateHooks

theorem queuedHooks_eq (d : Document) : d.queuedHooks = d.waiting.length :=
  List.length_append.symm

/-- The first of the waiting hooks is next. -/
theorem nextHook?_eq_some {d d' : Document} {label : String} {script : Script}
    (h : d.nextHook? = some (label, script, d')) : ∃ postHooks lateHooks,
      d.waiting = script :: (postHooks ++ lateHooks) ∧
      d' = { d with postHooks, lateHooks, started := d.started + 1 } := by
  unfold nextHook? at h
  unfold waiting
  dsimp only at h
  split at h
  · rename_i hp
    cases h
    exact ⟨_, d.lateHooks, by rw [hp]; rfl, rfl⟩
  · rename_i hp hl
    cases h
    exact ⟨d.postHooks, _, by rw [hp, hl]; rfl, rfl⟩
  · cases h

theorem nextHook?_eq_none {d : Document} : d.nextHook? = none ↔ d.waiting = [] := by
  unfold nextHook? waiting
  cases d.postHooks with
  | nil => cases d.lateHooks <;> simp
  | cons script rest => simp

/-! ## The changes -/

/-- What an operation can make of a document. -/
inductive Act (d : Document) : Document → Prop where
  /-- A source is installed. -/
  | install (text : String) (hp : d.phase < .tokenizing) : Act d (d.install text)
  /-- The source is split into segments. -/
  | tokenize {d' : Document} {notes : List String} (hp : d.phase = .hasSourceText)
    (h : d.tokenize = (d', notes, .ok ())) : Act d d'
  /-- The source could not be split. -/
  | misread (hp : d.phase = .hasSourceText) : Act d { d with phase := .tokenizing }
  /-- All inserts are settled. -/
  | settle (ss : List Settlement) (hp : d.phase = .tokenized) (hs : (d.settleAll ss).pending = ∅) :
    Act d { d.settleAll ss with phase := .fetchedAllInserts }
  /-- The wait for the inserts is given up while one of them is pending. -/
  | forsake (ss : List Settlement) (hp : d.phase = .tokenized)
    (hs : (d.settleAll ss).pending ≠ ∅) :
    Act d { d.settleAll ss with phase := .fetchingInserts }
  /-- The segments are joined. -/
  | merge {text : String} (hp : d.phase = .fetchedAllInserts)
    (hj : joinSegments 0 d.segments = .ok text) :
    Act d { d with merged := some text, phase := .segmentsMerged }
  /-- The text is replaced. -/
  | replace (text : String) (hp : d.phase = .segmentsMerged ∨ d.phase = .runningHooks) :
    Act d { d with merged := some text }

/-- What can happen to a document. -/
inductive Change (d : Document) : Document → Prop where
  | act {d' : Document} (h : Act d d') : Change d d'
  /-- The source is loaded. -/
  | load (text : String) (hp : d.phase = .init) :
    Change d { d with source := text, phase := .readSourceFile }
  /-- The hooks may be started. -/
  | release (hp : d.phase = .segmentsMerged) : Change d { d with phase := .runningHooks }
  /-- The next hook is started. -/
  | start {label : String} {script : Script} {d' : Document} (hp : d.phase = .runningHooks)
    (hn : d.nextHook? = some (label, script, d')) : Change d d'
  /-- With no hook left the rendering is complete. -/
  | finish (hp : d.phase = .runningHooks) (hn : d.nextHook? = none) :
    Change d { d with phase := .done }
  /-- A hook is queued. -/
  | enqueue (queue : Queue) (script : Script) : Change d (d.enqueue queue script)
  /-- The document is set up anew. -/
  | equip (filename : Option Path) (options : Options) (registry : Registry)
    (bindings : List (String × String)) (loader : Loader) :
    Change d { d with filename, options, registry, bindings, loader }

/-! ## What an operation leaves alone -/

/-- Installing a source changes the source, its mark and the phase. -/
theorem install_eq (d : Document) (text : String) : ∃ source marked,
    d.install text = { d with source, marked, phase := .hasSourceText } := by
  unfold install
  split
  · split
    · exact ⟨_, _, rfl⟩
    · exact ⟨_, _, rfl⟩
  · exact ⟨_, _, rfl⟩

/-- Whether two documents have the same hooks waiting, and as many were started. -/
structure SameHooks (d d' : Document) : Prop where
  post : d'.postHooks = d.postHooks
  late : d'.lateHooks = d.lateHooks
  started : d'.started = d.started

theorem SameHooks.refl (d : Document) : SameHooks d d := ⟨rfl, rfl, rfl⟩

theorem SameHooks.trans {d d' d'' : Document} (h : SameHooks d d') (h' : SameHooks d' d'') :
    SameHooks d d'' :=
  ⟨h'.post.trans h.post, h'.late.trans h.late, h'.started.trans h.started⟩

/-- No operation queues a hook or starts one. -/
theorem Act.sameHooks {d d' : Document} (h : Act d d') : SameHooks d d' := by
  cases h with
  | install text hp =>
      obtain ⟨_, _, hd⟩ := d.install_eq text
      rw [hd]
      exact ⟨rfl, rfl, rfl⟩
  | tokenize hp h =>
      obtain ⟨s, _, _, rfl⟩ := tokenize_eq_ok h
      exact ⟨rfl, rfl, rfl⟩
  | misread hp => exact ⟨rfl, rfl, rfl⟩
  | settle ss hp hs =>
      obtain ⟨_, _, _, hd⟩ := d.settleAll_frame ss
      rw [hd]
      exact ⟨rfl, rfl, rfl⟩
  | forsake ss hp hs =>
      obtain ⟨_, _, _, hd⟩ := d.settleAll_frame ss
      rw [hd]
      exact ⟨rfl, rfl, rfl⟩
  | merge hp hj => exact ⟨rfl, rfl, rfl⟩
  | replace text hp => exact ⟨rfl, rfl, rfl⟩

theorem sameHooks_of_acts {d d' : Document} (h : ReflTransGen Act d d') : SameHooks d d' :=
  preserved_of_steps (SameHooks d) h (fun ha h => h.trans ha.sameHooks) (.refl d)

/-! ## What the operations of a document make of it -/

theorem setSource_act {d d' : Document} {text : String} (h : d.setSource text = .ok d') :
    Act d d' := by
  unfold setSource at h
  split at h
  · cases h
  · rename_i hp
    cases h
    exact .install text (Nat.lt_of_not_le hp)

/-- The source is split, or a tag ends the split, or there is nothing to split. -/
theorem tokenize_cases (d : Document) :
    (∃ d' notes, d.phase = .hasSourceText ∧ d.tokenize = (d', notes, .ok ())) ∨
    (∃ notes e, d.phase = .hasSourceText ∧
      d.tokenize = ({ d with phase := .tokenizing }, notes, .error (.tag e))) ∨
    ∃ e, d.phase ≠ .hasSourceText ∧ d.tokenize = (d, [], .error (.usage e)) := by
  unfold tokenize
  split
  · rename_i hp
    split
    · exact .inl ⟨_, _, hp, rfl⟩
    · exact .inr (.inl ⟨_, _, hp, rfl⟩)
  · rename_i hp
    exact .inr (.inr ⟨_, by rw [hp]; decide, rfl⟩)
  · rename_i hp
    exact .inr (.inr ⟨_, by rw [hp]; decide, rfl⟩)
  · rename_i hp _ _
    exact .inr (.inr ⟨_, hp, rfl⟩)

theorem tokenize_acts (d : Document) : ReflTransGen Act d d.tokenize.1 := by
  rcases d.tokenize_cases with ⟨d', notes, hp, h⟩ | ⟨notes, e, hp, h⟩ | ⟨e, -, h⟩
  · rw [h]
    exact .single (.tokenize hp h)
  · rw [h]
    exact .single (.misread hp)
  · rw [h]

/-- A fetch settles all inserts, or is given up while one is pending, or is refused. -/
theorem fetch_cases (d : Document) (disk : Disk) (horizon : Nat) :
    (∃ ss handed time, d.phase = .tokenized ∧ (d.settleAll ss).pending = ∅ ∧
      d.fetch disk horizon =
        (((d.settleAll ss).closeFetch time).1, handed, ((d.settleAll ss).closeFetch time).2)) ∨
    (∃ ss handed, d.phase = .tokenized ∧ (d.settleAll ss).pending ≠ ∅ ∧
      d.fetch disk horizon =
        ({ d.settleAll ss with phase := .fetchingInserts }, handed, .suspended)) ∨
    d.phase ≠ .tokenized ∧
      d.fetch disk horizon = (d, [], .failed 0 (.usage (.outOfPhase .fetch d.phase))) := by
  unfold fetch
  split
  · rename_i hp
    obtain ⟨⟨ss, hs⟩, hh⟩ := Fetching.run_settles horizon (d.beginFetch disk)
    have hd : (d.beginFetch disk).document = { d with phase := .fetchingInserts } := rfl
    rw [hd, settleAll_withPhase] at hs
    dsimp only
    split
    · rename_i he
      rw [he, hs] at hh
      rw [hs]
      exact .inl ⟨ss, _, _, hp, hh.mp rfl, rfl⟩
    · -- to give up the inserts that are left is to settle them too
      obtain ⟨ha, hempty⟩ := abandonPending_eq ((d.beginFetch disk).run horizon).1.document
      generalize List.map _ _ = ss' at ha
      have hall : ((d.beginFetch disk).run horizon).1.document.abandonPending =
          { d.settleAll (ss ++ ss') with phase := .fetchingInserts } := by
        rw [ha, hs, settleAll_append]
        exact settleAll_withPhase _ _ _
      rw [hall] at hempty ⊢
      exact .inl ⟨ss ++ ss', _, _, hp, hempty, rfl⟩
    · rename_i he
      rw [he, hs] at hh
      rw [hs]
      exact .inr (.inl ⟨ss, _, hp, fun h => Halt.noConfusion (hh.mpr h), rfl⟩)
    · rename_i he
      rw [he, hs] at hh
      rw [hs]
      exact .inr (.inl ⟨ss, _, hp, fun h => Halt.noConfusion (hh.mpr h), rfl⟩)
  · rename_i hp
    exact .inr (.inr ⟨hp, rfl⟩)

theorem fetch_acts (d : Document) (disk : Disk) (horizon : Nat) :
    ReflTransGen Act d (d.fetch disk horizon).1 := by
  rcases d.fetch_cases disk horizon with
    ⟨ss, _, _, hp, hs, h⟩ | ⟨ss, _, hp, hs, h⟩ | ⟨-, h⟩
  · rw [h]
    exact .single (.settle ss hp hs)
  · rw [h]
    exact .single (.forsake ss hp hs)
  · rw [h]

/-- What a merge that succeeds makes of its document. -/
theorem merge_eq_ok {d d' : Document} (h : d.merge = .ok d') :
    d.phase = .fetchedAllInserts ∧ ∃ text, joinSegments 0 d.segments = .ok text ∧
      d' = { d with merged := some text, phase := .segmentsMerged } := by
  unfold merge at h
  split at h
  · rename_i hp
    cases hj : joinSegments 0 d.segments with
    | error e =>
        rw [hj] at h
        cases h
    | ok text =>
        rw [hj] at h
        cases h
        exact ⟨hp, text, rfl, rfl⟩
  · cases h

theorem merge_act {d d' : Document} (h : d.merge = .ok d') : Act d d' := by
  obtain ⟨hp, text, hj, rfl⟩ := merge_eq_ok h
  exact .merge hp hj

theorem replaceText_act {d d' : Document} {text : String} (h : d.replaceText text = .ok d') :
    Act d d' := by
  unfold replaceText at h
  split at h
  · rename_i hp
    cases h
    exact .replace text (.inl hp)
  · rename_i hp
    cases h
    exact .replace text (.inr hp)
  · cases h

theorem reviseText_act {d d' : Document} {f : String → String} (h : d.reviseText f = .ok d') :
    Act d d' := by
  unfold reviseText at h
  cases ht : d.text with
  | error e =>
      rw [ht] at h
      cases h
  | ok text =>
      rw [ht] at h
      exact replaceText_act h

end Document

/-! ## What the operations of a session make of its document -/

namespace Session

open Document (Act Change)

/-- An operation that may be refused makes what it makes when it is not. -/
theorem update_acts {ε : Type} {s : Session} {result : Except ε Document}
    (h : ∀ d, result = .ok d → Act s.document d) :
    ReflTransGen Act s.document (s.update result).1.document := by
  cases result with
  | ok d => exact .single (h d rfl)
  | error e => exact .refl

theorem ok_of_mapError {ε ε' : Type} {f : ε → ε'} {result : Except ε Document} {d : Document}
    (h : result.mapError f = .ok d) : result = .ok d := by
  cases result with
  | ok d' => exact congrArg Except.ok (Except.ok.inj h)
  | error e => cases h

theorem tokenize_acts (s : Session) :
    ReflTransGen Act s.document s.tokenize.1.document := Document.tokenize_acts _

theorem fetch_acts (s : Session) (horizon : Nat) :
    ReflTransGen Act s.document (s.fetch horizon).1.document := by
  have h := Document.fetch_acts s.document s.outlet.disk (horizon - s.now)
  unfold fetch
  dsimp only
  split <;> exact h

theorem merge_acts (s : Session) : ReflTransGen Act s.document s.merge.1.document :=
  update_acts fun _ => Document.merge_act

/-- What an action of a hook makes of the document. -/
theorem perform_acts (s : Session) (horizon : Nat) (action : Action) :
    ReflTransGen Act s.document (s.perform horizon action).1.document := by
  unfold perform
  cases action with
  | note => exact .refl
  | noteText =>
      dsimp only
      split <;> exact .refl
  | noteState => exact .refl
  | revise f => exact update_acts fun _ h => Document.reviseText_act (ok_of_mapError h)
  | replace text => exact update_acts fun _ h => Document.replaceText_act (ok_of_mapError h)
  | fail => exact .refl
  | save path =>
      dsimp only
      rw [save_document]
  | setSource text => exact update_acts fun _ h => Document.setSource_act (ok_of_mapError h)
  | tokenize => exact s.tokenize_acts
  | fetch => exact s.fetch_acts horizon
  | merge => exact s.merge_acts
  | sleep duration =>
      dsimp only
      rw [sleep_document]

theorem changes_of_acts {d d' : Document} (h : ReflTransGen Act d d') : ReflTransGen Change d d' :=
  ReflTransGen.mono (fun _ _ => Change.act) _ _ h

/-- What an advance changes. -/
theorem advance_changes (s : Session) (horizon : Nat) :
    ReflTransGen Change s.document (s.advance horizon).1.document := by
  unfold advance
  dsimp only
  split
  · rename_i hp
    split
    · exact .refl
    · split
      · exact .single (.load _ hp)
      · exact .refl
  · rename_i hp
    exact .single (.act (.install _ (by rw [hp]; decide)))
  · exact changes_of_acts s.tokenize_acts
  · exact .refl
  · exact changes_of_acts (s.fetch_acts horizon)
  · exact .refl
  · split
    · exact changes_of_acts s.merge_acts
    · exact .refl
  · rename_i hp
    exact .single (.release hp)
  · rename_i hp
    split
    · rename_i hn
      exact .single (.start hp hn)
    · rename_i hn
      exact .single (.finish hp hn)
  · exact .refl

theorem acts_of_perform {horizon : Nat} {action : Action} {s s' : Session}
    {ending : Ending String Unit} (h : s.perform horizon action = (s', ending)) :
    ReflTransGen Act s.document s'.document := by
  have hc := s.perform_acts horizon action
  rw [h] at hc
  exact hc

theorem changes_of_advance {horizon : Nat} {s s' : Session} {a : Advance}
    (h : s.advance horizon = (s', a)) : ReflTransGen Change s.document s'.document := by
  have hc := s.advance_changes horizon
  rw [h] at hc
  exact hc

/-- An advance that starts no hook leaves the hooks alone. -/
theorem advance_sameHooks {horizon : Nat} {s s' : Session} {a : Advance}
    (h : s.advance horizon = (s', a)) (ha : ∀ label script, a ≠ .started label script) :
    s.document.SameHooks s'.document := by
  unfold advance at h
  dsimp only at h
  split at h
  · split at h
    · cases h
      exact .refl _
    · split at h
      · cases h
        exact ⟨rfl, rfl, rfl⟩
      · cases h
        exact .refl _
  · rename_i hp
    cases h
    exact (Act.install _ (by rw [hp]; decide)).sameHooks
  · obtain ⟨rfl, -⟩ := Prod.mk.inj h
    exact Document.sameHooks_of_acts s.tokenize_acts
  · cases h
    exact .refl _
  · obtain ⟨rfl, -⟩ := Prod.mk.inj h
    exact Document.sameHooks_of_acts (s.fetch_acts horizon)
  · cases h
    exact .refl _
  · split at h
    · obtain ⟨rfl, -⟩ := Prod.mk.inj h
      exact Document.sameHooks_of_acts s.merge_acts
    · cases h
      exact .refl _
  · cases h
    exact ⟨rfl, rfl, rfl⟩
  · split at h
    · obtain ⟨-, rfl⟩ := Prod.mk.inj h
      exact absurd rfl (ha _ _)
    · cases h
      exact ⟨rfl, rfl, rfl⟩
  · cases h
    exact .refl _

theorem moved_sameHooks {horizon : Nat} {s s' : Session} (h : s.advance horizon = (s', .moved)) :
    s.document.SameHooks s'.document := advance_sameHooks h nofun

end Session

end Inlay
