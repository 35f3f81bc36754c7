import Inlay.Proofs.Session.Passage

set_option autoImplicit false

/-! # Hooks that are left over

A rendering is complete when no hook is left in the queues. But a hook may have driven the rendering
to its end itself, and it may then queue another hook, which is never started. There is no other way
to lose a hook (`render_drains`): a hook is left over only where one was queued late. Hooks that
queue others only before they drive the rendering (`prompt`) lose none.
-/

namespace Inlay

open Relation (ReflTransGen)
open Document (Act Change)

/-! ## Scripts that queue no hook too late -/

/-- Whether an instruction queues a hook. -/
def Instruction.queues : Instruction → Bool
  | .enqueue _ _ => true
  | _ => false

/-- Whether an instruction drives the rendering. -/
def Instruction.drives : Instruction → Bool
  | .render | .step => true
  | _ => false

/-- Whether a script queues no hook. -/
def quiet (script : Script) : Bool := script.all fun i => !i.queues

mutual

/-- Whether the hook that an instruction queues, if it does, is a prompt one. -/
def Instruction.prompt : Instruction → Bool
  | .enqueue _ script => prompt script
  | _ => true

/-- Whether a script queues no hook after it drove the rendering, nor do the hooks that it
queues. -/
def prompt : List Instruction → Bool
  | [] => true
  | i :: rest => i.prompt && (!i.drives || quiet rest) && prompt rest

end

/-- The instructions that are left of a frame. -/
def Frame.rest : Frame → Script
  | .hook _ rest => rest
  | _ => []

/-- Nothing is left to do of a frame that drives the rendering. -/
theorem Frame.Drives.rest_eq {frame after : Frame} (h : frame.Drives after) : after.rest = [] := by
  cases h <;> rfl

theorem quiet_tail {i : Instruction} {rest : Script} (h : quiet (i :: rest)) : quiet rest :=
  (Bool.and_eq_true_iff.mp h).2

theorem prompt_tail {i : Instruction} {rest : Script} (h : prompt (i :: rest)) : prompt rest :=
  (Bool.and_eq_true_iff.mp h).2

theorem prompt_driven {i : Instruction} {rest : Script} (h : prompt (i :: rest))
    (hd : i.drives = true) : quiet rest := by
  unfold prompt at h
  rw [hd] at h
  simp only [Bool.and_eq_true, Bool.not_true, Bool.false_or] at h
  exact h.1.2

theorem prompt_of_quiet {script : Script} (h : quiet script) : prompt script := by
  induction script with
  | nil => rfl
  | cons i rest ih =>
      have hr := quiet_tail h
      unfold prompt
      rw [ih hr, hr, Bool.or_true, Bool.and_true, Bool.and_true]
      cases i with
      | enqueue queue script => cases h
      | act action => rfl
      | render => rfl
      | step => rfl

theorem prompt_queued {queue : Queue} {script rest : Script}
    (h : prompt (.enqueue queue script :: rest)) : prompt script := by
  unfold prompt Instruction.prompt at h
  simp only [Bool.and_eq_true] at h
  exact h.1.1

/-! ## What is done with the queues -/

namespace Document

/-- No operation completes a rendering, or has an effect on one that is complete. -/
theorem Act.not_done {d d' : Document} (h : Act d d') : d.phase ≠ .done ∧ d'.phase ≠ .done := by
  have other {p : Phase} (hp : d.phase = p) (hne : p ≠ .done) : d.phase ≠ .done :=
    fun hd => hne (hp.symm.trans hd)
  cases h with
  | install text hp =>
      refine ⟨fun hd => absurd (hd ▸ hp) (by decide), ?_⟩
      rw [install_phase]
      decide
  | tokenize hp h =>
      obtain ⟨s, _, _, rfl⟩ := tokenize_eq_ok h
      exact ⟨other hp (by decide), nofun⟩
  | misread hp => exact ⟨other hp (by decide), nofun⟩
  | settle ss hp hs => exact ⟨other hp (by decide), nofun⟩
  | forsake ss hp hs => exact ⟨other hp (by decide), nofun⟩
  | merge hp hj => exact ⟨other hp (by decide), nofun⟩
  | replace text hp =>
      rcases hp with hp | hp
      · exact ⟨other hp (by decide), other hp (by decide)⟩
      · exact ⟨other hp (by decide), other hp (by decide)⟩

theorem waiting_of_sameHooks {d d' : Document} (h : d.SameHooks d') : d'.waiting = d.waiting := by
  unfold waiting
  rw [h.post, h.late]

theorem eq_of_acts_done {d d' : Document} (h : ReflTransGen Act d d') (hp : d.phase = .done) :
    d' = d :=
  preserved_of_steps (fun d' => d' = d) h (fun ha h => absurd (h ▸ hp) ha.not_done.1) rfl

theorem not_done_of_acts {d d' : Document} (h : ReflTransGen Act d d') (hp : d.phase ≠ .done) :
    d'.phase ≠ .done :=
  preserved_of_steps (fun d' => d'.phase ≠ .done) h (fun ha _ => ha.not_done.2) hp

theorem Change.done {d d' : Document} (h : Change d d') (hp : d.phase = .done) :
    d'.phase = .done := by
  cases h with
  | act ha => exact absurd hp ha.not_done.1
  | load text hp' => cases hp.symm.trans hp'
  | release hp' => cases hp.symm.trans hp'
  | start hp' hn => cases hp.symm.trans hp'
  | finish hp' hn => rfl
  | enqueue queue script => cases queue <;> exact hp
  | equip filename options registry bindings loader => exact hp

theorem done_of_changes {d d' : Document} (h : ReflTransGen Change d d') (hp : d.phase = .done) :
    d'.phase = .done := preserved_of_steps (fun d' => d'.phase = .done) h Change.done hp

theorem prompt_enqueue {d : Document} {script : Script} (queue : Queue)
    (hd : ∀ x ∈ d.waiting, prompt x) (hs : prompt script) :
    ∀ x ∈ (d.enqueue queue script).waiting, prompt x := by
  intro x hx
  have hor : x ∈ d.waiting ∨ x = script := by
    cases queue with
    | post => simpa [waiting, enqueue, or_assoc, or_comm, or_left_comm] using hx
    | late => simpa [waiting, enqueue, or_assoc] using hx
  rcases hor with hx | rfl
  · exact hd x hx
  · exact hs

end Document

namespace Session

variable {horizon : Nat} {s s' : Session}

/-- An advance to a later phase leaves the waiting hooks alone, and is one to the end only if there
are none. -/
theorem advance_moved_waiting (h : s.advance horizon = (s', .moved)) :
    s'.document.waiting = s.document.waiting ∧
      (s'.document.phase = .done → s.document.waiting = []) := by
  refine ⟨Document.waiting_of_sameHooks (moved_sameHooks h), fun hd => ?_⟩
  have hlt := (advance_moved h).2
  rw [advance_next h] at hd hlt
  have hp : s.document.phase = .runningHooks := by
    generalize s.document.phase = p at hd hlt
    cases p with
    | runningHooks => rfl
    | done => exact absurd hlt (Nat.lt_irrefl _)
    | _ => cases hd
  rw [← Document.nextHook?_eq_none]
  cases hn : s.document.nextHook? with
  | none => rfl
  | some next =>
      -- the advance would start this hook
      unfold advance at h
      dsimp only at h
      rw [hp] at h
      dsimp only at h
      rw [hn] at h
      cases h

end Session

namespace Machine

variable {horizon : Nat} {m m' : Machine}

/-! ## The rendering comes to its end -/

/-- Whether the rendering is complete, or the outermost frame still drives it. -/
def Bound (m : Machine) : Prop :=
  m.session.document.phase = .done ∨ m.stack.getLast? = some .render

/-- A frame that is put on a stack leaves the outermost one. -/
theorem getLast?_push {frame last : Frame} {below : List Frame} (h : below.getLast? = some last) :
    (frame :: below).getLast? = some last := by
  rw [List.getLast?_cons, h]
  rfl

/-- A frame other than the outermost one is taken off a stack. -/
theorem getLast?_pop {frame last : Frame} {below : List Frame}
    (h : (frame :: below).getLast? = some last) (hf : frame ≠ last) :
    below.getLast? = some last := by
  cases below with
  | nil => exact absurd (Option.some.inj h) hf
  | cons frame' below => rwa [List.getLast?_cons_cons] at h

/-- A frame that drives the rendering is replaced by what is left of it. -/
theorem getLast?_drives {frame after : Frame} {below : List Frame} (hf : frame.Drives after)
    (h : (frame :: below).getLast? = some .render) : (after :: below).getLast? = some .render := by
  cases hf with
  | render => exact h
  | step => exact getLast?_push (getLast?_pop h nofun)

theorem Next.bound (hn : Next horizon m m') (h : m.Bound) : m'.Bound := by
  rcases h with hp | hl
  · exact .inl (Document.done_of_changes hn.changes hp)
  · cases hn with
    | noted hb => exact .inr (getLast?_pop hl nofun)
    | moved hf ha => exact .inr (getLast?_drives hf hl)
    | started hf ha => exact .inr (getLast?_push (getLast?_drives hf hl))
    | rendered hp => exact .inl hp
    | stepped hp => exact .inl hp
    | ended => exact .inr (getLast?_pop hl nofun)
    | queued => exact .inr (getLast?_push (getLast?_pop hl nofun))
    | renders => exact .inr (getLast?_push (getLast?_push (getLast?_pop hl nofun)))
    | steps => exact .inr (getLast?_push (getLast?_push (getLast?_pop hl nofun)))
    | performed hp => exact .inr (getLast?_push (getLast?_pop hl nofun))

theorem Moves.bound (hm : Moves horizon m m') (h : m.Bound) : m'.Bound :=
  preserved_of_steps Bound hm (fun hn => (move_next hn).bound) h

/-- A rendering that returns is complete. -/
theorem Halts.done {s : Session} {more : Bool} (hh : Halts horizon m s (.returned more))
    (h : m.Bound) : s = m.session ∧ s.document.phase = .done := by
  cases hh with
  | idle =>
      rcases h with hp | hl
      · exact ⟨rfl, hp⟩
      · cases hl
  | answered =>
      rcases h with hp | hl
      · exact ⟨rfl, hp⟩
      · cases hl

/-! ## No hook is left at the end -/

/-- The move that completes the rendering finds no hook in the queues. -/
theorem Next.drained (hn : Next horizon m m') (hp : m.session.document.phase ≠ .done)
    (hp' : m'.session.document.phase = .done) : m'.session.document.waiting = [] := by
  cases hn with
  | noted hb => exact absurd hp' hp
  | moved hf ha =>
      obtain ⟨hw, hd⟩ := Session.advance_moved_waiting ha
      exact hw.trans (hd hp')
  | started hf ha =>
      obtain ⟨hr, hn⟩ := Session.advance_started ha
      cases hp'.symm.trans ((Document.nextHook?_phase hn).trans hr)
  | rendered hd => exact absurd hd hp
  | stepped hd => exact absurd hd hp
  | ended => exact absurd hp' hp
  | @queued _ queue => cases queue <;> exact absurd hp' hp
  | renders => exact absurd hp' hp
  | steps => exact absurd hp' hp
  | performed ha => exact absurd hp' (Document.not_done_of_acts (Session.acts_of_perform ha) hp)

theorem Moves.drained (hm : Moves horizon m m') (hp : m.session.document.phase ≠ .done)
    (hp' : m'.session.document.phase = .done) :
    ∃ m₁, Moves horizon m m₁ ∧ Moves horizon m₁ m' ∧ m₁.session.document.phase = .done ∧
      m₁.session.document.waiting = [] := by
  induction hm with
  | refl => exact absurd hp' hp
  | @tail m₂ m₃ hm hn ih =>
      by_cases hp₂ : m₂.session.document.phase = .done
      · obtain ⟨m₁, hm₁, hm₂, h⟩ := ih hp₂
        exact ⟨m₁, hm₁, hm₂.tail hn, h⟩
      · exact ⟨m₃, hm.tail hn, .refl, hp', (move_next hn).drained hp₂ hp'⟩

/-- The instruction that is next, if the innermost frame is a hook that has any left. -/
def instruction? (m : Machine) : Option Instruction :=
  m.stack.head?.bind fun frame => frame.rest.head?

/-- Whether a hook is about to queue another when the rendering is complete. -/
structure Late (m : Machine) : Prop where
  done : m.session.document.phase = .done
  queues : m.instruction?.any Instruction.queues = true

/-- Nothing else happens to a document that is complete. -/
theorem Next.settled (hn : Next horizon m m') (hp : m.session.document.phase = .done) :
    m.Late ∧ m'.session.document.queuedHooks = m.session.document.queuedHooks + 1 ∨
      ¬ m.Late ∧ m'.session.document = m.session.document := by
  have not_late (h : m.instruction?.any Instruction.queues = false) : ¬ m.Late :=
    fun hl => Bool.false_ne_true (h.symm.trans hl.queues)
  have not_moved {s s' : Session} (ha : s.advance horizon = (s', .moved)) :
      s.document.phase ≠ .done := by
    intro hd
    have hr := (Session.advance_moved ha).2
    rw [hd] at hr
    exact absurd hr (Nat.not_lt_of_le s'.document.phase.rank_le)
  cases hn with
  | noted hb => exact .inr ⟨not_late rfl, rfl⟩
  | moved hf ha => exact absurd hp (not_moved ha)
  | started hf ha => cases hp.symm.trans (Session.advance_started ha).1
  | rendered hd => exact .inr ⟨not_late rfl, rfl⟩
  | stepped hd => exact .inr ⟨not_late rfl, rfl⟩
  | ended => exact .inr ⟨not_late rfl, rfl⟩
  | @queued _ queue script _ _ s =>
      have hq : (s.document.enqueue queue script).queuedHooks = s.document.queuedHooks + 1 := by
        cases queue <;> simp [Document.queuedHooks, Document.enqueue] <;> omega
      exact .inl ⟨⟨hp, rfl⟩, hq⟩
  | renders => exact .inr ⟨not_late rfl, rfl⟩
  | steps => exact .inr ⟨not_late rfl, rfl⟩
  | performed ha =>
      exact .inr ⟨not_late rfl, Document.eq_of_acts_done (Session.acts_of_perform ha) hp⟩

theorem Moves.settled (hm : Moves horizon m m') (hp : m.session.document.phase = .done) :
    m'.session.document = m.session.document ∨ ∃ m₁, Moves horizon m m₁ ∧ m₁.Late := by
  induction hm with
  | refl => exact .inl rfl
  | tail hm hn ih =>
      rcases ih with h | h
      · rcases (move_next hn).settled (h ▸ hp) with ⟨hl, -⟩ | ⟨-, heq⟩
        · exact .inr ⟨_, hm, hl⟩
        · exact .inl (heq.trans h)
      · exact .inr h

/-- No hook is started any more, so those that are queued are left. -/
theorem Moves.queued_le (hm : Moves horizon m m') (hp : m.session.document.phase = .done) :
    m.session.document.queuedHooks ≤ m'.session.document.queuedHooks := by
  induction hm using ReflTransGen.head_induction_on with
  | refl => exact Nat.le_refl _
  | head hn _ ih =>
      have hle := ih (Document.done_of_changes (move_next hn).changes hp)
      rcases (move_next hn).settled hp with ⟨-, hq⟩ | ⟨-, heq⟩
      · omega
      · rwa [heq] at hle

/-- A machine that is about to run an instruction that queues a hook does not halt. -/
theorem Halts.not_late {s : Session} {ending : Ending RenderError Bool}
    (hh : Halts horizon m s ending) : ¬ m.Late := by
  intro hl
  have hq := hl.queues
  cases hh with
  | idle => cases hq
  | answered => cases hq
  | refused hf ha => cases hf <;> cases hq
  | waited hf ha => cases hf <;> cases hq
  | failed ha => cases hq
  | slept ha => cases hq

/-- A hook that is queued late is left at the end. -/
theorem Late.left {s : Session} {ending : Ending RenderError Bool} (hl : m.Late)
    (hm : Moves horizon m m') (hh : m'.move horizon = .halt s ending) :
    m'.session.document.queuedHooks ≠ 0 := by
  cases hm using ReflTransGen.head_induction_on with
  | refl => exact absurd hl (move_halts hh).not_late
  | head hn hm =>
      have hle := Moves.queued_le hm (Document.done_of_changes (move_next hn).changes hl.done)
      rcases (move_next hn).settled hl.done with ⟨-, hq⟩ | ⟨hno, -⟩
      · omega
      · exact absurd hl hno

/-- Moves lead to the halt in one way, whatever lies between. -/
theorem Moves.to_halt {m₁ : Machine} {s : Session} {ending : Ending RenderError Bool}
    (hm : Moves horizon m m') (hm₁ : Moves horizon m m₁) (hh : m'.move horizon = .halt s ending) :
    Moves horizon m₁ m' := by
  have hu : Relator.RightUnique fun m m' : Machine => m.move horizon = .next m' :=
    fun _ _ _ h h' => Move.next.inj (h.symm.trans h')
  rcases ReflTransGen.total_of_right_unique hu hm hm₁ with h | h
  · cases h using ReflTransGen.head_induction_on with
    | refl => exact .refl
    | head hn _ => cases hh.symm.trans hn
  · exact h

/-! ## Prompt hooks -/

/-- What prompt hooks keep up: every hook that waits or runs is prompt, those that drive the
rendering queue nothing after it, and once it is complete nor does any other. -/
structure Orderly (m : Machine) : Prop where
  waiting : ∀ script ∈ m.session.document.waiting, prompt script
  running : ∀ frame ∈ m.stack, prompt frame.rest
  driving : ∀ frame ∈ m.stack.tail, quiet frame.rest
  done : m.session.document.phase = .done → ∀ frame ∈ m.stack, quiet frame.rest

theorem Orderly.not_late (h : m.Orderly) : ¬ m.Late := by
  rintro ⟨hp, hq⟩
  obtain ⟨stack, s⟩ := m
  cases stack with
  | nil => cases hq
  | cons frame below =>
      have hquiet := h.done hp frame List.mem_cons_self
      unfold instruction? at hq
      dsimp only [List.head?_cons, Option.bind_some] at hq
      cases hr : frame.rest with
      | nil =>
          rw [hr] at hq
          cases hq
      | cons i rest =>
          rw [hr] at hq hquiet
          have hi : (!i.queues) = true := (Bool.and_eq_true_iff.mp hquiet).1
          rw [show i.queues = true from hq] at hi
          cases hi

section Stack

variable {frame : Frame} {below : List Frame} {s : Session}

/-- The frames below the innermost one drive the rendering, all of them. -/
theorem orderly_cons (hw : ∀ script ∈ s.document.waiting, prompt script)
    (hr : prompt frame.rest) (hb : ∀ f ∈ below, quiet f.rest)
    (hd : s.document.phase = .done → quiet frame.rest) : Orderly ⟨frame :: below, s⟩ where
  waiting := hw
  running := List.forall_mem_cons.mpr ⟨hr, fun f hf => prompt_of_quiet (hb f hf)⟩
  driving := hb
  done hp := List.forall_mem_cons.mpr ⟨hd hp, hb⟩

theorem orderly_below (hw : ∀ script ∈ s.document.waiting, prompt script)
    (hb : ∀ f ∈ below, quiet f.rest) : Orderly ⟨below, s⟩ where
  waiting := hw
  running f hf := prompt_of_quiet (hb f hf)
  driving f hf := hb f (List.mem_of_mem_tail hf)
  done _ := hb

end Stack

theorem Next.orderly (hn : Next horizon m m') (h : m.Orderly) : m'.Orderly := by
  -- the instructions that are left of a hook stay prompt, and quiet once the rendering is complete
  have ht {label : String} {i : Instruction} {rest : Script} {below : List Frame} {s : Session}
      (h : Orderly ⟨.hook label (i :: rest) :: below, s⟩) :
      prompt rest ∧ (s.document.phase = .done → quiet rest) :=
    ⟨prompt_tail (h.running _ List.mem_cons_self),
      fun hp => quiet_tail (h.done hp _ List.mem_cons_self)⟩
  cases hn with
  | noted hb => exact orderly_below h.waiting h.driving
  | moved hf ha =>
      refine orderly_cons ?_ (hf.rest_eq ▸ rfl) h.driving fun _ => hf.rest_eq ▸ rfl
      exact (Session.advance_moved_waiting ha).1 ▸ h.waiting
  | started hf ha =>
      obtain ⟨hp, hn⟩ := Session.advance_started ha
      obtain ⟨_, _, hw, hs'⟩ := Document.nextHook?_eq_some hn
      have hall : ∀ script ∈ _, prompt script := hw ▸ h.waiting
      obtain ⟨hscript, hrest⟩ := List.forall_mem_cons.mp hall
      refine orderly_cons ?_ hscript ?_ fun hd => ?_
      · rw [hs']
        exact hrest
      · exact List.forall_mem_cons.mpr ⟨hf.rest_eq ▸ rfl, h.driving⟩
      · cases hd.symm.trans ((Document.nextHook?_phase hn).trans hp)
  | rendered hp => exact orderly_below h.waiting h.driving
  | stepped hp => exact orderly_cons h.waiting rfl h.driving fun _ => rfl
  | ended => exact orderly_below h.waiting h.driving
  | @queued _ queue script =>
      have hq := prompt_queued (h.running _ List.mem_cons_self)
      have hw := Document.prompt_enqueue queue h.waiting hq
      refine orderly_cons hw (ht h).1 h.driving fun hp => (ht h).2 ?_
      cases queue <;> exact hp
  | renders =>
      have hq := prompt_driven (h.running _ List.mem_cons_self) rfl
      exact orderly_cons h.waiting rfl (List.forall_mem_cons.mpr ⟨hq, h.driving⟩) fun _ => rfl
  | steps =>
      have hq := prompt_driven (h.running _ List.mem_cons_self) rfl
      exact orderly_cons h.waiting rfl (List.forall_mem_cons.mpr ⟨hq, h.driving⟩) fun _ => rfl
  | performed ha =>
      have hacts := Session.acts_of_perform ha
      refine orderly_cons ?_ (ht h).1 h.driving fun hp => (ht h).2 ?_
      · exact Document.waiting_of_sameHooks (Document.sameHooks_of_acts hacts) ▸ h.waiting
      · exact Classical.not_not.mp fun hne => Document.not_done_of_acts hacts hne hp

theorem Moves.orderly (hm : Moves horizon m m') (h : m.Orderly) : m'.Orderly :=
  preserved_of_steps Orderly hm (fun hn => (move_next hn).orderly) h

end Machine

namespace Session

open Machine (Moves)

/-- **A rendering that returns is complete, and when it was completed no hook was left.** A hook is
left at the end if and only if one was queued after that. Prompt hooks queue none so late. -/
theorem render_drains {horizon : Nat} {s s' : Session} {more : Bool}
    (hp : s.document.phase ≠ .done) (h : s.render horizon = (s', .returned more)) :
    s'.document.phase = .done ∧
      (∃ m, Moves horizon ⟨[.render], s⟩ m ∧ m.session.document.phase = .done ∧
        m.session.document.queuedHooks = 0) ∧
      (s'.document.queuedHooks = 0 ↔ ¬ ∃ m, Moves horizon ⟨[.render], s⟩ m ∧ m.Late) ∧
      ((∀ script ∈ s.document.waiting, prompt script) → s'.document.queuedHooks = 0) := by
  obtain ⟨m', hm, hh⟩ := Machine.run_halts horizon ⟨[.render], s⟩
  rw [show Machine.run horizon ⟨[.render], s⟩ = _ from h] at hh
  obtain ⟨rfl, hd⟩ := (Machine.move_halts hh).done (Moves.bound hm (.inr rfl))
  obtain ⟨m, hm₁, hm₂, hd₁, hw⟩ := Moves.drained hm hp hd
  have hempty : m.session.document.queuedHooks = 0 := by
    rw [Document.queuedHooks_eq, hw]
    rfl
  have hiff : m'.session.document.queuedHooks = 0 ↔
      ¬ ∃ m, Moves horizon ⟨[.render], s⟩ m ∧ m.Late := by
    refine ⟨fun hq ⟨m₂, hm₂, hl⟩ => hl.left (Moves.to_halt hm hm₂ hh) hh hq, fun hno => ?_⟩
    rcases Moves.settled hm₂ hd₁ with heq | ⟨m₂, hm₂, hl⟩
    · exact heq ▸ hempty
    · exact absurd ⟨m₂, hm₁.trans hm₂, hl⟩ hno
  refine ⟨hd, ⟨m, hm₁, hd₁, hempty⟩, hiff, fun hprompt => hiff.mpr ?_⟩
  rintro ⟨m₂, hm₂, hl⟩
  have ho : Machine.Orderly ⟨[.render], s⟩ :=
    Machine.orderly_cons hprompt rfl (List.forall_mem_nil _) fun _ => rfl
  exact (Moves.orderly hm₂ ho).not_late hl

/-- A merged document with one hook, which renders it and then queues another hook. -/
def hasty : Session where
  document :=
    { phase := .runningHooks
      merged := some ""
      postHooks := [[.render, .enqueue .post []]] }

/-- The hook that is queued is left over, and the rendering was complete when it was queued. -/
theorem hasty_left : ∃ s', hasty.render 0 = (s', .returned false) ∧
    s'.document.queuedHooks = 1 ∧ ∃ m, Moves 0 ⟨[.render], hasty⟩ m ∧ m.Late := by
  let s' : Session := { document :=
    { hasty.document with phase := .done, postHooks := [[]], started := 1 } }
  have hr : hasty.render 0 = (s', .returned false) := by
    -- the hook starts, renders, completes and returns, queues, ends, and the rendering returns
    iterate 7 refine (Machine.run_next rfl).trans ?_
    exact Machine.run_halt rfl
  obtain ⟨-, -, hiff, -⟩ := render_drains (by decide) hr
  refine ⟨s', hr, rfl, Classical.not_not.mp fun hno => ?_⟩
  cases hiff.mpr hno

end Session

end Inlay
