import Inlay.Proofs.Session.Progress

set_option autoImplicit false

/-! # Hooks in turn

A history tells of the hooks of a document in use: which were queued and which were started, in the
order in which that happened. What is told of one event is read off the two machines: a hook is
started when it is put on top of what was under way, and its queue is the one that has become
shorter; it is queued when it is new at the end of a queue (`hookEvents`).

The hooks of a queue that were started, followed by those that still wait, are at any time the hooks
that were ever put into it, in the same order (`History.accounts`). So none is started twice and
none is passed over, and each that is started is the next in turn (`hooks_in_turn`).
-/

namespace Inlay

open Relation (ReflTransGen)

/-! ## Histories -/

/-- Something that happens to a hook. -/
inductive HookEvent where
  | queued (queue : Queue) (script : Script)
  /-- A hook of a queue is started under a label, in some phase of the document. -/
  | started (queue : Queue) (script : Script) (label : String) (phase : Phase)

namespace HookEvent

/-- The hook that is queued in a queue. -/
def queued? (queue : Queue) : HookEvent → Option Script
  | .queued queue' script => if queue' = queue then some script else none
  | .started _ _ _ _ => none

/-- The hook that is started from a queue. -/
def started? (queue : Queue) : HookEvent → Option Script
  | .queued _ _ => none
  | .started queue' script _ _ => if queue' = queue then some script else none

/-- Whether a hook is started. -/
def starts : HookEvent → Bool
  | .queued _ _ => false
  | .started _ _ _ _ => true

end HookEvent

/-- The hooks that were queued in a queue, oldest first. -/
def queuedIn (queue : Queue) (es : List HookEvent) : List Script :=
  es.filterMap (HookEvent.queued? queue)

/-- The hooks that were started from a queue, in order. -/
def startedFrom (queue : Queue) (es : List HookEvent) : List Script :=
  es.filterMap (HookEvent.started? queue)

namespace Document

/-- The hooks that wait in a queue. -/
def hooks (d : Document) : Queue → List Script
  | .post => d.postHooks
  | .late => d.lateHooks

/-- The hooks of a queue that were not started since `d`, oldest first. -/
def unstarted (d : Document) (queue : Queue) (es : List HookEvent) : List Script :=
  (d.hooks queue ++ queuedIn queue es).drop (startedFrom queue es).length

/-- Whether a hook that is started after some history is the next in turn, and is labelled by its
queue and its number. -/
structure InTurn (d : Document) (before : List HookEvent) (queue : Queue) (script : Script)
    (label : String) (phase : Phase) : Prop where
  phase : phase = .runningHooks
  oldest : (d.unstarted queue before).head? = some script
  late : queue = .late → d.unstarted .post before = []
  label : label = queue.name ++ "#" ++ toString (d.started + before.countP HookEvent.starts + 1)

end Document

namespace Machine

/-- The hook that was put on top of what was under way, if one was. -/
def begun? (m m' : Machine) : Option (String × Script) :=
  match m'.stack with
  | .hook label script :: below =>
    if m.stack.length ≤ below.length then some (label, script) else none
  | _ => none

/-- What is told of the hooks when one machine comes of another. -/
def hookEvents (m m' : Machine) : List HookEvent :=
  let d := m.session.document
  let d' := m'.session.document
  match begun? m m' with
  | some (label, script) =>
    -- the hook was taken from the queue that has become shorter
    let queue := if d'.postHooks.length < d.postHooks.length then Queue.post else .late
    [.started queue script label d.phase]
  | none =>
    (d'.postHooks.drop d.postHooks.length).map (.queued .post) ++
      (d'.lateHooks.drop d.lateHooks.length).map (.queued .late)

/-- The histories of a session in use. -/
inductive History (m : Machine) : List HookEvent → Machine → Prop where
  | nil : History m [] m
  | event {es : List HookEvent} {m₁ m₂ : Machine} (h : History m es m₁) (he : Event m₁ m₂) :
    History m (es ++ hookEvents m₁ m₂) m₂

variable {m m' m₁ m₂ : Machine}

/-- All use of a session has a history. -/
theorem Reaches.exists_history (h : Reaches m m') : ∃ es, History m es m' := by
  induction h with
  | refl => exact ⟨[], .nil⟩
  | tail _ he ih =>
      obtain ⟨es, h⟩ := ih
      exact ⟨_, h.event he⟩

/-! ## What is told of one event -/

/-- What can be told of the hooks when something happens, and what it does to the queues. -/
inductive Tells (d d' : Document) : List HookEvent → Prop where
  | nothing (h : d.SameHooks d') : Tells d d' []
  | queued {queue : Queue} {script : Script} (h : d' = d.enqueue queue script) :
    Tells d d' [.queued queue script]
  /-- A late hook is started only if no other waits. -/
  | started {queue : Queue} {script : Script} (hp : d.phase = .runningHooks)
    (hq : d.hooks queue = script :: d'.hooks queue)
    (ho : ∀ other, other ≠ queue → d'.hooks other = d.hooks other)
    (hl : queue = .late → d.postHooks = []) (hs : d'.started = d.started + 1) :
    Tells d d' [.started queue script (queue.name ++ "#" ++ toString (d.started + 1)) d.phase]

/-- No hook is begun where nothing is put on the stack. -/
theorem begun?_of_le (h : m'.stack.length ≤ m.stack.length) : begun? m m' = none := by
  unfold begun?
  split
  · rename_i hstack
    rw [hstack, List.length_cons] at h
    exact if_neg (Nat.not_le_of_lt h)
  · rfl

theorem tells_nothing (hb : begun? m m' = none)
    (h : m.session.document.SameHooks m'.session.document) :
    Tells m.session.document m'.session.document (hookEvents m m') := by
  unfold hookEvents
  dsimp only
  rw [hb, h.post, h.late]
  dsimp only
  rw [List.drop_length, List.drop_length]
  exact .nothing h

theorem tells_queued {queue : Queue} {script : Script} (hb : begun? m m' = none)
    (h : m'.session.document = m.session.document.enqueue queue script) :
    Tells m.session.document m'.session.document (hookEvents m m') := by
  unfold hookEvents
  dsimp only
  rw [hb]
  dsimp only
  rw [h]
  cases queue with
  | post =>
      unfold Document.enqueue
      dsimp only
      rw [List.drop_left, List.drop_length]
      exact .queued rfl
  | late =>
      unfold Document.enqueue
      dsimp only
      rw [List.drop_left, List.drop_length]
      exact .queued rfl

/-- The next hook is the first of its queue, under the number of hooks that were started. -/
theorem tells_started {label : String} {script : Script}
    (hp : m.session.document.phase = .runningHooks)
    (hb : begun? m m' = some (label, script))
    (hn : m.session.document.nextHook? = some (label, script, m'.session.document)) :
    Tells m.session.document m'.session.document (hookEvents m m') := by
  unfold hookEvents
  dsimp only
  rw [hb]
  dsimp only
  generalize m.session.document = d at *
  generalize m'.session.document = d' at *
  unfold Document.nextHook? at hn
  dsimp only at hn
  split at hn
  · rename_i hpost
    cases hn
    rw [hpost, if_pos (by simp)]
    refine .started hp hpost (fun other ho => ?_) nofun rfl
    cases other with
    | post => exact absurd rfl ho
    | late => rfl
  · rename_i hpost hlate
    cases hn
    rw [hpost, if_neg (by simp)]
    refine .started hp hlate (fun other ho => ?_) (fun _ => hpost) rfl
    cases other with
    | post => exact hpost.symm
    | late => exact absurd rfl ho
  · cases hn

/-- A move tells of the hook that it queues or starts. -/
theorem Next.tells {horizon : Nat} (h : Next horizon m m') :
    Tells m.session.document m'.session.document (hookEvents m m') := by
  cases h with
  | noted hb => exact tells_nothing (begun?_of_le (Nat.le_succ _)) (.refl _)
  | moved hf ha =>
      refine tells_nothing ?_ (Session.moved_sameHooks ha)
      cases hf <;> rfl
  | started hf ha =>
      obtain ⟨hp, hn⟩ := Session.advance_started ha
      exact tells_started hp (if_pos (Nat.le_refl _)) hn
  | rendered hp => exact tells_nothing (begun?_of_le (Nat.le_succ _)) (.refl _)
  | stepped hp => exact tells_nothing rfl (.refl _)
  | ended => exact tells_nothing (begun?_of_le (Nat.le_succ _)) (.refl _)
  | queued => exact tells_queued (begun?_of_le (Nat.le_refl _)) rfl
  | renders => exact tells_nothing rfl (.refl _)
  | steps => exact tells_nothing rfl (.refl _)
  | performed hp =>
      exact tells_nothing (begun?_of_le (Nat.le_refl _))
        (Document.sameHooks_of_acts (Session.acts_of_perform hp))

/-- A call that ends otherwise than by its answer starts no hook on the way out. -/
theorem Halts.sameHooks {horizon : Nat} {s : Session} {ending : Ending RenderError Bool}
    (h : Halts horizon m s ending) : m.session.document.SameHooks s.document := by
  cases h with
  | idle => exact .refl _
  | answered => exact .refl _
  | refused hf ha => exact Session.advance_sameHooks ha nofun
  | waited hf ha => exact Session.advance_sameHooks ha nofun
  | failed hp => exact Document.sameHooks_of_acts (Session.acts_of_perform hp)
  | slept hp => exact Document.sameHooks_of_acts (Session.acts_of_perform hp)

theorem Event.tells (h : Event m m') :
    Tells m.session.document m'.session.document (hookEvents m m') := by
  cases h with
  | act horizon action =>
      exact tells_nothing (begun?_of_le (Nat.le_refl _))
        (Document.sameHooks_of_acts (m.session.perform_acts horizon action))
  | enqueue queue script => exact tells_queued (begun?_of_le (Nat.le_refl _)) rfl
  | call hf =>
      refine tells_nothing ?_ (.refl _)
      cases hf <;> rfl
  | move h => exact (move_next h).tells
  | halt h hb => exact tells_nothing (begun?_of_le hb.length_le) (move_halts h).sameHooks
  | drop hb => exact tells_nothing (begun?_of_le hb.length_le) (.refl _)
  | settle ss hp hs =>
      exact tells_nothing (begun?_of_le (Nat.le_refl _)) (Document.Act.settle ss hp hs).sameHooks
  | forsake ss hp hs =>
      exact tells_nothing (begun?_of_le (Nat.le_refl _)) (Document.Act.forsake ss hp hs).sameHooks
  | equip filename options registry bindings loader =>
      exact tells_nothing (begun?_of_le (Nat.le_refl _)) ⟨rfl, rfl, rfl⟩
  | elsewhere outlet notes handles now =>
      exact tells_nothing (begun?_of_le (Nat.le_refl _)) (.refl _)

/-! ## What a history accounts for -/

theorem hooks_enqueue (d : Document) (queue other : Queue) (script : Script) :
    (d.enqueue queue script).hooks other =
      d.hooks other ++ queuedIn other [.queued queue script] := by
  cases queue <;> cases other <;>
    simp [Document.enqueue, Document.hooks, queuedIn, HookEvent.queued?]

/-- Whether a history, with the hooks that wait after it, accounts for all hooks that were ever in a
queue, and for the number of those that were started. -/
structure Accounts (d d' : Document) (es : List HookEvent) : Prop where
  hooks : ∀ queue, startedFrom queue es ++ d'.hooks queue = d.hooks queue ++ queuedIn queue es
  started : d'.started = d.started + es.countP HookEvent.starts

theorem Tells.accounts {d d' : Document} {es : List HookEvent} (h : Tells d d' es) :
    Accounts d d' es := by
  cases h with
  | nothing h =>
      refine ⟨fun queue => ?_, h.started⟩
      cases queue with
      | post => simpa [startedFrom, queuedIn, Document.hooks] using h.post
      | late => simpa [startedFrom, queuedIn, Document.hooks] using h.late
  | @queued queue script h =>
      subst h
      refine ⟨fun other => ?_, ?_⟩
      · exact hooks_enqueue d queue other script
      · cases queue <;> rfl
  | @started queue script hp hq ho hl hs =>
      refine ⟨fun other => ?_, hs⟩
      by_cases h : other = queue
      · subst h
        rw [hq]
        simp [startedFrom, queuedIn, HookEvent.started?, HookEvent.queued?]
      · rw [ho other h]
        simp [startedFrom, queuedIn, HookEvent.started?, HookEvent.queued?, Ne.symm h]

theorem Accounts.trans {d d' d'' : Document} {es es' : List HookEvent} (h : Accounts d d' es)
    (h' : Accounts d' d'' es') : Accounts d d'' (es ++ es') where
  hooks queue := by
    unfold startedFrom queuedIn
    rw [List.filterMap_append, List.filterMap_append]
    calc startedFrom queue es ++ startedFrom queue es' ++ d''.hooks queue
        = startedFrom queue es ++ (startedFrom queue es' ++ d''.hooks queue) :=
          List.append_assoc _ _ _
      _ = startedFrom queue es ++ (d'.hooks queue ++ queuedIn queue es') := by rw [h'.hooks]
      _ = startedFrom queue es ++ d'.hooks queue ++ queuedIn queue es' :=
          (List.append_assoc _ _ _).symm
      _ = d.hooks queue ++ queuedIn queue es ++ queuedIn queue es' := by rw [h.hooks]
      _ = d.hooks queue ++ (queuedIn queue es ++ queuedIn queue es') := List.append_assoc _ _ _
  started := by
    rw [h'.started, h.started, List.countP_append, Nat.add_assoc]

theorem History.accounts {es : List HookEvent} (h : History m es m') :
    Accounts m.session.document m'.session.document es := by
  induction h with
  | nil => exact ⟨fun queue => by simp [startedFrom, queuedIn], rfl⟩
  | event _ he ih => exact ih.trans he.tells.accounts

/-- The hooks that were not started are those that wait. -/
theorem Accounts.unstarted {d d' : Document} {es : List HookEvent} (h : Accounts d d' es)
    (queue : Queue) : d.unstarted queue es = d'.hooks queue := by
  unfold Document.unstarted
  rw [← h.hooks, List.drop_left]

theorem Tells.length_le {d d' : Document} {es : List HookEvent} (h : Tells d d' es) :
    es.length ≤ 1 := by
  cases h with
  | nothing _ => exact Nat.zero_le 1
  | queued _ => exact Nat.le_refl 1
  | started _ _ _ _ _ => exact Nat.le_refl 1

/-- What stands in a history with at most one more event stands before that event, or is it. -/
theorem split_last {es last before after : List HookEvent} {e : HookEvent}
    (hl : last.length ≤ 1) (h : es ++ last = before ++ e :: after) :
    (∃ rest, es = before ++ e :: rest) ∨ (es = before ∧ last = [e]) := by
  match last, hl with
  | [], _ => exact .inl ⟨after, by simpa using h⟩
  | [x], _ =>
      rcases List.eq_nil_or_concat after with rfl | ⟨rest, y, rfl⟩
      · exact .inr (List.append_inj' h rfl)
      · rw [List.concat_eq_append, ← List.cons_append, ← List.append_assoc] at h
        exact .inl ⟨rest, (List.append_inj' h rfl).1⟩

/-- What is told last is told of a hook in its turn. -/
theorem Tells.inTurn {d d₁ d₂ : Document} {es : List HookEvent} {queue : Queue} {script : Script}
    {label : String} {phase : Phase} (h : Accounts d d₁ es)
    (ht : Tells d₁ d₂ [.started queue script label phase]) :
    d.InTurn es queue script label phase := by
  cases ht with
  | started hp hq ho hl hs =>
      refine ⟨hp, ?_, fun hlate => ?_, ?_⟩
      · rw [h.unstarted, hq]
        rfl
      · rw [h.unstarted]
        exact hl hlate
      · rw [h.started]

/-- **Hooks are started in their turn.** Whatever is done with a document, a hook is started while
hooks run only; it is the oldest that was not started, of its own queue, and of the other queue too
if it is a late one; its label is the name of its queue with its number. All hooks that were ever in
a queue were started once, in the order in which they were queued, or still wait. -/
theorem hooks_in_turn {es : List HookEvent} (h : History m es m') :
    (∀ before queue script label phase after,
      es = before ++ .started queue script label phase :: after →
        m.session.document.InTurn before queue script label phase) ∧
    (∀ queue, startedFrom queue es ++ m'.session.document.hooks queue =
      m.session.document.hooks queue ++ queuedIn queue es) ∧
    m'.session.document.started = m.session.document.started + es.countP HookEvent.starts := by
  refine ⟨?_, h.accounts.hooks, h.accounts.started⟩
  induction h with
  | nil =>
      intro before queue script label phase after heq
      exact absurd heq.symm (List.append_ne_nil_of_right_ne_nil _ (List.cons_ne_nil _ _))
  | @event es m₁ m₂ h he ih =>
      intro before queue script label phase after heq
      rcases split_last he.tells.length_le heq with ⟨rest, rfl⟩ | ⟨rfl, hlast⟩
      · exact ih before queue script label phase rest rfl
      · exact Tells.inTurn h.accounts (hlast ▸ he.tells)

/-- A merged document with two late hooks, the first of which queues a post hook. -/
def queuing : Session where
  document :=
    { phase := .runningHooks
      merged := some ""
      lateHooks := [[.enqueue .post []], []] }

/-- The hook that was queued last is started second: the other late hook still waits. -/
theorem queuing_in_turn : ∃ (m : Machine) (before : List HookEvent) (label : String),
    History ⟨[.render], queuing⟩ (before ++ [.started .post [] label .runningHooks]) m ∧
      m.session.document.lateHooks = [[]] ∧
      queuing.document.InTurn before .post [] label .runningHooks := by
  let late : String := Queue.late.name ++ "#" ++ toString 1
  let post : String := Queue.post.name ++ "#" ++ toString 2
  let s : Session := { document := { queuing.document with lateHooks := [[]], started := 1 } }
  let s₁ : Session := { document := { s.document with postHooks := [[]] } }
  let s₂ : Session := { document := { s.document with started := 2 } }
  let before : List HookEvent :=
    [.started .late [.enqueue .post []] late .runningHooks, .queued .post []]
  have hlate : move 0 ⟨[.render], queuing⟩ =
      .next ⟨[.hook late [.enqueue .post []], .render], s⟩ := rfl
  have hqueue : move 0 ⟨[.hook late [.enqueue .post []], .render], s⟩ =
      .next ⟨[.hook late [], .render], s₁⟩ := rfl
  have hend : move 0 ⟨[.hook late [], .render], s₁⟩ = .next ⟨[.render], s₁⟩ := rfl
  have hpost : move 0 ⟨[.render], s₁⟩ = .next ⟨[.hook post [], .render], s₂⟩ := rfl
  have h : History ⟨[.render], queuing⟩ (before ++ [.started .post [] post .runningHooks])
      ⟨[.hook post [], .render], s₂⟩ :=
    (((History.nil.event (.move hlate)).event (.move hqueue)).event (.move hend)).event
      (.move hpost)
  exact ⟨_, before, post, h, rfl, (hooks_in_turn h).1 _ _ _ _ _ [] rfl⟩

end Machine

end Inlay
