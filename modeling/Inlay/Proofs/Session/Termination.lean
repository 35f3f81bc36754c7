import Inlay.Proofs.Session.Cancellation
import Inlay.Proofs.Session.Draining
import Inlay.Proofs.Session.LateHooks
import Inlay.Proofs.Session.Turns

set_option autoImplicit false

/-! # Renderings come to an end

Hooks may queue hooks and drive the rendering from within, to any depth, and still a rendering comes
to an end, as scripts are finite. Two quantities tell how soon. Every move lowers the effort of the
machine, which is linear in the load of the scripts that wait or run (`Next.effort_lt`), so a run is
a chain of at most so many moves (`exists_takes`). And a move starts a hook or leaves their number
alone, in such a way that the hooks started and the scripts that are left, nested ones included,
stay the same in number (`Next.conserves`): every script is started once, or not at all.

A machine that halts has returned or failed, or it waits. Past the fetch of the inserts nothing
waits but a hook that lets time pass (`Halts.not_suspended`).
-/

namespace Inlay

/-! ## Counting scripts -/

mutual

/-- The number of scripts that an instruction queues, with those that these queue in turn. -/
def Instruction.scripts : Instruction → Nat
  | .enqueue _ script => 1 + scriptsIn script
  | _ => 0

/-- The number of scripts that the instructions of a script queue, nested ones included. -/
def scriptsIn : List Instruction → Nat
  | [] => 0
  | i :: rest => i.scripts + scriptsIn rest

end

/-- The number of some scripts, with those that they queue. -/
def scriptCount : List Script → Nat
  | [] => 0
  | script :: rest => 1 + scriptsIn script + scriptCount rest

theorem scriptCount_append (scripts scripts' : List Script) :
    scriptCount (scripts ++ scripts') = scriptCount scripts + scriptCount scripts' := by
  induction scripts with
  | nil => exact (Nat.zero_add _).symm
  | cons script rest ih =>
      rw [List.cons_append, scriptCount, scriptCount, ih]
      omega

/-- The number of hooks of a document that were not started, with those that they queue. -/
def Document.scripts (d : Document) : Nat := scriptCount d.waiting

/-- A hook that is queued adds itself and the scripts in it. -/
theorem Document.enqueue_scripts (d : Document) (queue : Queue) (script : Script) :
    (d.enqueue queue script).scripts = d.scripts + (1 + scriptsIn script) := by
  unfold scripts waiting
  cases queue with
  | post =>
      simp only [enqueue, scriptCount_append, scriptCount]
      omega
  | late =>
      simp only [enqueue, scriptCount_append, scriptCount]
      omega

/-- A hook waits after another was queued if it did before, or is the other one. -/
theorem Document.mem_waiting_enqueue {d : Document} {queue : Queue} {script x : Script} :
    x ∈ (d.enqueue queue script).waiting ↔ x ∈ d.waiting ∨ x = script := by
  cases queue with
  | post => simp [waiting, enqueue, or_comm, or_left_comm]
  | late => simp [waiting, enqueue, or_assoc]

/-- Where the hooks are left alone, the counts are. -/
theorem Document.SameHooks.counts {d d' : Document} (h : d.SameHooks d') :
    d'.started = d.started ∧ d'.scripts = d.scripts := by
  refine ⟨h.started, ?_⟩
  unfold scripts
  rw [waiting_of_sameHooks h]

/-- A hook that is started takes the scripts in it out of the queues. -/
theorem Document.nextHook?_scripts {d d' : Document} {label : String} {script : Script}
    (h : d.nextHook? = some (label, script, d')) :
    d'.started = d.started + 1 ∧ d.scripts = 1 + scriptsIn script + d'.scripts := by
  obtain ⟨postHooks, lateHooks, hw, rfl⟩ := nextHook?_eq_some h
  refine ⟨rfl, ?_⟩
  unfold scripts
  rw [hw, scriptCount]
  rfl

namespace Machine

variable {horizon : Nat} {m m' : Machine}

/-- The number of scripts that a stack has still to queue. -/
def stackScripts : List Frame → Nat
  | [] => 0
  | frame :: below => scriptsIn frame.rest + stackScripts below

/-- The number of scripts that were not started, whether they wait or are still to be queued. -/
def scripts (m : Machine) : Nat := m.session.document.scripts + stackScripts m.stack

/-- **Scripts are conserved.** A script that is no longer left was started. -/
theorem Next.conserves (h : Next horizon m m') :
    m'.session.document.started + m'.scripts = m.session.document.started + m.scripts := by
  unfold scripts
  cases h with
  | noted hb => simp [stackScripts, Frame.rest, scriptsIn, Session.note]
  | @moved frame after below s s' hf ha =>
      obtain ⟨hs, hd⟩ := (Session.moved_sameHooks ha).counts
      cases hf <;> simp [stackScripts, Frame.rest, scriptsIn, hs, hd]
  | @started frame after below s s' label script hf ha =>
      obtain ⟨hs, hd⟩ := Document.nextHook?_scripts (Session.advance_started ha).2
      cases hf <;> simp only [stackScripts, Frame.rest, scriptsIn, hs, hd] <;> omega
  | rendered hp => simp [stackScripts, Frame.rest, scriptsIn]
  | stepped hp => simp [stackScripts, Frame.rest, scriptsIn]
  | ended => simp [stackScripts, Frame.rest, scriptsIn]
  | @queued label queue script rest below s =>
      have hs : (s.document.enqueue queue script).started = s.document.started := by
        cases queue <;> rfl
      simp only [stackScripts, Frame.rest, scriptsIn, Instruction.scripts,
        Document.enqueue_scripts, hs]
      omega
  | renders => simp [stackScripts, Frame.rest, scriptsIn, Instruction.scripts]
  | steps => simp [stackScripts, Frame.rest, scriptsIn, Instruction.scripts]
  | performed hp =>
      obtain ⟨hs, hd⟩ := (Document.sameHooks_of_acts (Session.acts_of_perform hp)).counts
      simp [stackScripts, Frame.rest, scriptsIn, Instruction.scripts, hs, hd]

/-! ## Counting moves -/

/-- A bound on the moves that a machine has before it. A unit of load costs up to three: the move
that takes it away, and two for the frame that this may put on the stack. -/
def effort (m : Machine) : Nat := 3 * m.load + m.phasesLeft + m.weight

/-- **Every move lowers the effort.** -/
theorem Next.effort_lt (h : Next horizon m m') : m'.effort < m.effort := by
  simp only [effort, load, phasesLeft, weight]
  cases h with
  | noted hb => simp [stackLoad, stackWeight, frameLoad, frameWeight, Session.note]
  | @moved frame after below s s' hf ha =>
      obtain ⟨hl, hr⟩ := Session.advance_moved ha
      have := s'.document.phase.rank_le
      cases hf <;> simp only [stackLoad, stackWeight, frameLoad, frameWeight, hl] <;> omega
  | @started frame after below s s' label script hf ha =>
      obtain ⟨-, hn⟩ := Session.advance_started ha
      have hl := Document.nextHook?_load hn
      have hp := Document.nextHook?_phase hn
      cases hf <;> simp only [stackLoad, stackWeight, frameLoad, frameWeight, hp] <;> omega
  | rendered hp => simp [stackLoad, stackWeight, frameLoad, frameWeight]
  | stepped hp => simp [stackLoad, stackWeight, frameLoad, frameWeight]
  | ended => simp [stackLoad, stackWeight, frameLoad, frameWeight, scriptLoad]
  | @queued label queue script rest below s =>
      have hp : (s.document.enqueue queue script).phase = s.document.phase := by
        cases queue <;> rfl
      simp only [stackLoad, stackWeight, frameLoad, frameWeight, scriptLoad, Instruction.load,
        Document.enqueue_hookLoad, hp]
      omega
  | renders =>
      simp only [stackLoad, stackWeight, frameLoad, frameWeight, scriptLoad, Instruction.load]
      omega
  | steps =>
      simp only [stackLoad, stackWeight, frameLoad, frameWeight, scriptLoad, Instruction.load]
      omega
  | @performed label action rest below s s' hp =>
      have hl := Session.perform_hookLoad horizon action s
      rw [hp] at hl
      have hr : s.document.phase.rank ≤ s'.document.phase.rank :=
        Document.phase_le_of_changes (Session.changes_of_acts (Session.acts_of_perform hp))
      simp only [stackLoad, stackWeight, frameLoad, frameWeight, scriptLoad, Instruction.load, hl]
      omega

/-- Whether a machine comes to another by a number of moves. -/
inductive Takes (horizon : Nat) : Nat → Machine → Machine → Prop where
  | none {m : Machine} : Takes horizon 0 m m
  | move {n : Nat} {m m₁ m' : Machine} (h : m.move horizon = .next m₁)
    (ht : Takes horizon n m₁ m') : Takes horizon (n + 1) m m'

/-- What every move preserves is preserved by any number of them. -/
theorem Takes.moves {n : Nat} (h : Takes horizon n m m') : Moves horizon m m' := by
  induction h with
  | none => exact .refl
  | move h _ ih => exact .head h ih

/-- A run halts after no more moves than its effort. -/
theorem exists_takes (horizon : Nat) (m : Machine) : ∃ n m',
    Takes horizon n m m' ∧ n + m'.effort ≤ m.effort ∧
      m'.move horizon = .halt (m.run horizon).1 (m.run horizon).2 := by
  fun_induction run horizon m with
  | case1 m m₁ h ih =>
      obtain ⟨n, m', ht, hle, hh⟩ := ih
      have hlt := (move_next h).effort_lt
      exact ⟨n + 1, m', .move h ht, by omega, hh⟩
  | case2 m s ending h => exact ⟨0, m, .none, by omega, h⟩

end Machine

/-! ## What waits -/

namespace Session

variable {horizon : Nat} {s s' : Session}

theorem update_ne_suspended {ε : Type} (s : Session) (result : Except ε Document) :
    (s.update result).2 ≠ .suspended := by
  cases result <;> nofun

/-- Only a fetch of the inserts waits for something that the document needs. -/
theorem tokenized_of_fetch (h : (s.fetch horizon).2 = .suspended) :
    s.document.phase = .tokenized := by
  rcases s.document.fetch_cases s.outlet.disk (horizon - s.now) with
    ⟨_, _, _, hp, _, _⟩ | ⟨_, _, hp, _, _⟩ | ⟨_, hf⟩
  · exact hp
  · exact hp
  · unfold fetch at h
    rw [hf] at h
    cases h

theorem tokenized_of_advance (h : s.advance horizon = (s', .suspended)) :
    s.document.phase = .tokenized := by
  unfold advance at h
  dsimp only at h
  split at h
  · split at h
    · cases h
    · split at h <;> cases h
  · cases h
  · exact absurd (ofEnding_suspended (Prod.mk.inj h).2) s.tokenize_ne_suspended
  · cases h
  · assumption
  · cases h
  · split at h
    · exact absurd (ofEnding_suspended (Prod.mk.inj h).2) (s.update_ne_suspended _)
    · cases h
  · cases h
  · split at h <;> cases h
  · cases h

theorem suspended_of_mapError {ε ε' α : Type} {f : ε → ε'} {ending : Ending ε α}
    (h : ending.mapError f = .suspended) : ending = .suspended := by
  cases ending <;> cases h
  rfl

/-- Past the fetch of the inserts, only a hook that lets time pass waits. -/
theorem perform_suspended {action : Action} (h : s.perform horizon action = (s', .suspended)) :
    s.document.phase = .tokenized ∨ ∃ duration, action = .sleep duration := by
  have told {r : Session × Ending RenderError Unit}
      (h : (r.1, r.2.mapError RenderError.message) = (s', Ending.suspended)) :
      r.2 = .suspended := suspended_of_mapError (Prod.mk.inj h).2
  unfold perform at h
  cases action with
  | note text => cases h
  | noteText =>
      dsimp only at h
      split at h <;> cases h
  | noteState => cases h
  | revise f => exact absurd (told h) (s.update_ne_suspended _)
  | replace text => exact absurd (told h) (s.update_ne_suspended _)
  | fail reason => cases h
  | save path =>
      refine absurd (told h) ?_
      unfold save
      split
      · nofun
      · split <;> nofun
  | setSource text => exact absurd (told h) (s.update_ne_suspended _)
  | tokenize => exact absurd (told h) s.tokenize_ne_suspended
  | fetch => exact .inl (tokenized_of_fetch (told h))
  | merge => exact absurd (told h) (s.update_ne_suspended _)
  | sleep duration => exact .inr ⟨duration, rfl⟩

end Session

mutual

/-- Whether an instruction neither lets time pass nor queues a hook that does. -/
def Instruction.wakeful : Instruction → Bool
  | .act (.sleep _) => false
  | .enqueue _ script => wakeful script
  | _ => true

/-- Whether no instruction of a script lets time pass, nor any of the hooks that it queues. -/
def wakeful : List Instruction → Bool
  | [] => true
  | i :: rest => i.wakeful && wakeful rest

end

namespace Machine

variable {horizon : Nat} {m m' : Machine}

/-- Whether something holds of every script that waits and of what is left of each that runs. -/
structure AllScripts (P : Script → Prop) (m : Machine) : Prop where
  waiting : ∀ script ∈ m.session.document.waiting, P script
  running : ∀ frame ∈ m.stack, P frame.rest

/-- What holds of the empty script, and of a script only if of its rest and of the script that it
queues first, goes on to hold of all scripts. -/
theorem Next.allScripts {P : Script → Prop} (nil : P [])
    (tail : ∀ i rest, P (i :: rest) → P rest)
    (queued : ∀ queue script rest, P (.enqueue queue script :: rest) → P script)
    (h : Next horizon m m') (hm : m.AllScripts P) : m'.AllScripts P := by
  obtain ⟨hw, hr⟩ := hm
  have below {frame : Frame} {below : List Frame}
      (h : ∀ f ∈ frame :: below, P f.rest) : ∀ f ∈ below, P f.rest :=
    (List.forall_mem_cons.mp h).2
  have driven {frame after : Frame} (hf : frame.Drives after) : P after.rest := hf.rest_eq ▸ nil
  cases h with
  | noted hb => exact ⟨hw, below hr⟩
  | moved hf ha =>
      refine ⟨?_, List.forall_mem_cons.mpr ⟨driven hf, below hr⟩⟩
      exact (Session.advance_moved_waiting ha).1 ▸ hw
  | started hf ha =>
      obtain ⟨postHooks, lateHooks, hn, hd⟩ :=
        Document.nextHook?_eq_some (Session.advance_started ha).2
      obtain ⟨hscript, hrest⟩ := List.forall_mem_cons.mp (hn ▸ hw)
      refine ⟨by rw [hd]; exact hrest, ?_⟩
      exact List.forall_mem_cons.mpr ⟨hscript, List.forall_mem_cons.mpr ⟨driven hf, below hr⟩⟩
  | rendered hp => exact ⟨hw, below hr⟩
  | stepped hp => exact ⟨hw, List.forall_mem_cons.mpr ⟨nil, below hr⟩⟩
  | ended => exact ⟨hw, below hr⟩
  | @queued label queue script rest stack s =>
      have hq := hr _ List.mem_cons_self
      refine ⟨fun x hx => ?_, List.forall_mem_cons.mpr ⟨tail _ _ hq, below hr⟩⟩
      rcases Document.mem_waiting_enqueue.mp hx with hx | rfl
      · exact hw x hx
      · exact queued _ _ _ hq
  | renders =>
      have hq := tail _ _ (hr _ List.mem_cons_self)
      exact ⟨hw, List.forall_mem_cons.mpr ⟨nil, List.forall_mem_cons.mpr ⟨hq, below hr⟩⟩⟩
  | steps =>
      have hq := tail _ _ (hr _ List.mem_cons_self)
      exact ⟨hw, List.forall_mem_cons.mpr ⟨nil, List.forall_mem_cons.mpr ⟨hq, below hr⟩⟩⟩
  | performed hp =>
      have hq := tail _ _ (hr _ List.mem_cons_self)
      refine ⟨?_, List.forall_mem_cons.mpr ⟨hq, below hr⟩⟩
      exact Document.waiting_of_sameHooks
        (Document.sameHooks_of_acts (Session.acts_of_perform hp)) ▸ hw

theorem Moves.wakeful (h : Moves horizon m m') (hm : m.AllScripts (wakeful ·)) :
    m'.AllScripts (wakeful ·) := by
  refine preserved_of_steps (AllScripts (Inlay.wakeful ·)) h (fun hn => ?_) hm
  refine (move_next hn).allScripts rfl (fun i rest hq => ?_) fun queue script rest hq => ?_
  · exact (Bool.and_eq_true_iff.mp hq).2
  · exact (Bool.and_eq_true_iff.mp hq).1

/-- **Wakeful hooks make nothing wait** once the inserts are fetched. -/
theorem Halts.not_suspended {s : Session} {ending : Ending RenderError Bool}
    (h : Halts horizon m s ending) (hp : .fetchedAllInserts ≤ m.session.document.phase)
    (hm : m.AllScripts (wakeful ·)) : ending ≠ .suspended := by
  have past {p : Phase} (hp : .fetchedAllInserts ≤ p) : p ≠ .tokenized := by
    rintro rfl
    exact absurd hp (by decide)
  cases h with
  | idle => nofun
  | answered => nofun
  | refused hf ha => nofun
  | waited hf ha => exact absurd (Session.tokenized_of_advance ha) (past hp)
  | failed ha => nofun
  | slept ha =>
      rcases Session.perform_suspended ha with ht | ⟨duration, rfl⟩
      · exact absurd ht (past hp)
      · exact absurd (hm.running _ List.mem_cons_self) nofun

theorem Moves.phase_le (h : Moves horizon m m') :
    m.session.document.phase ≤ m'.session.document.phase :=
  preserved_of_steps (fun m' => m.session.document.phase ≤ m'.session.document.phase) h
    (fun hn hle => Nat.le_trans hle (Document.phase_le_of_changes (move_next hn).changes))
    (Nat.le_refl _)

/-- The scripts that were started by the end of a run are no more than there were, and where it
returns, all others wait. -/
theorem Moves.started {s : Session} {ending : Ending RenderError Bool} (h : Moves horizon m m')
    (hh : Halts horizon m' s ending) :
    s.document.started + s.document.scripts ≤ m.session.document.started + m.scripts ∧
      ∀ more, ending = .returned more →
        s.document.started + s.document.scripts = m.session.document.started + m.scripts := by
  have hc : m'.session.document.started + m'.scripts =
      m.session.document.started + m.scripts :=
    preserved_of_steps (fun m' => m'.session.document.started + m'.scripts = _) h
      (fun hn hc => (move_next hn).conserves.trans hc) rfl
  obtain ⟨hs, hd⟩ := hh.sameHooks.counts
  rw [hs, hd, ← hc]
  unfold scripts
  refine ⟨by omega, fun more he => ?_⟩
  subst he
  -- nothing is under way any more but the answer
  cases hh with
  | idle => rfl
  | answered => rfl

end Machine

namespace Session

open Machine (Takes Moves AllScripts)

/-- **A rendering past the fetch of the inserts comes to an end.** It takes no more moves than three
for each unit of load of the hooks that wait, and four. By then no more hooks were started than
there were scripts in the queues, nested ones included; if the rendering returns, each of these was
started or still waits. And it does end by returning or by an error, unless some hook lets time
pass. -/
theorem render_returns {horizon : Nat} {s : Session}
    (hp : .fetchedAllInserts ≤ s.document.phase) :
    (∃ n m, Takes horizon n ⟨[.render], s⟩ m ∧ n ≤ 3 * s.document.hookLoad + 4 ∧
      m.move horizon = .halt (s.render horizon).1 (s.render horizon).2) ∧
    (s.render horizon).1.document.started ≤ s.document.started + s.document.scripts ∧
    (∀ more, (s.render horizon).2 = .returned more →
      (s.render horizon).1.document.started + (s.render horizon).1.document.scripts =
        s.document.started + s.document.scripts) ∧
    ((∀ script ∈ s.document.waiting, wakeful script) → (s.render horizon).2 ≠ .suspended) := by
  obtain ⟨n, m, ht, hn, hh⟩ := Machine.exists_takes horizon ⟨[.render], s⟩
  have hm := ht.moves
  obtain ⟨hle, heq⟩ := hm.started (Machine.move_halts hh)
  refine ⟨⟨n, m, ht, ?_, hh⟩, ?_, heq, fun hw => ?_⟩
  · have he : Machine.effort ⟨[.render], s⟩ =
        3 * s.document.hookLoad + (9 - s.document.phase.rank) + 1 := rfl
    have hr : 6 ≤ s.document.phase.rank := hp
    omega
  · exact Nat.le_trans (Nat.le_add_right _ _) hle
  · refine (Machine.move_halts hh).not_suspended ?_ (hm.wakeful ⟨hw, by simp [Frame.rest, wakeful]⟩)
    exact Nat.le_trans hp hm.phase_le

/-- A merged document with one hook, which queues a late one that makes a step, and then renders the
document itself. -/
def diving : Session where
  document :=
    { phase := .segmentsMerged
      merged := some ""
      postHooks := [[.enqueue .late [.step], .render]] }

/-- Both hooks are started, the late one by the rendering within the other, and none is left. -/
theorem diving_returns : .fetchedAllInserts ≤ diving.document.phase ∧
    (∀ script ∈ diving.document.waiting, wakeful script) ∧
    ∃ s', diving.render 0 = (s', .returned false) ∧ s'.document.scripts = 0 ∧
      s'.document.started = 2 := by
  let s' : Session := { document :=
    { diving.document with phase := .done, postHooks := [], started := 2 }, notes := [.more true] }
  have hr : diving.render 0 = (s', .returned false) := by
    -- the hooks are released, six moves lead down to the answer of the step, and five lead back
    iterate 12 refine (Machine.run_next rfl).trans ?_
    exact Machine.run_halt rfl
  have hp : .fetchedAllInserts ≤ diving.document.phase := by decide
  obtain ⟨-, -, heq, -⟩ := @render_returns 0 diving hp
  rw [hr] at heq
  have htotal : s'.document.started + 0 = 0 + 2 := heq false rfl
  exact ⟨hp, by decide, s', hr, rfl, htotal⟩

end Session

end Inlay
