import Inlay.Proofs.Command.Chain
import Inlay.Proofs.Inserts.Isolation
import Inlay.Settings.Basic

set_option autoImplicit false

/-! # Inserts without delay

A fetch is prompt if it loads a text at once and has the limit of its document. Where all inserts
of a document are prompt there is nothing to wait for: the fetch is over before any time has passed,
and so it is never given up (`fetch_prompt`). The handlers that settings lead to bring no other
fetches (`registry_prompt`), so all that their commands insert is prompt (`tokenize_prompt`).
-/

namespace Inlay

/-- Whether a fetch loads a text without a delay, within the limit of the document. -/
structure Fetch.Prompt (f : Fetch) : Prop where
  work : ∃ path encoding, f.work = .load 0 path encoding
  turn : f.turn = .first
  deadline : f.deadline = .standard

namespace PendingInsert

variable {insert : PendingInsert} {standard : Option Nat}
  {load : Path → Encoding → Except LoadError String}

theorem limit_of_prompt (h : insert.fetch.Prompt) : insert.limit? standard = standard := by
  unfold limit?
  rw [h.deadline]
  rfl

theorem delivery_of_prompt (h : insert.fetch.Prompt) :
    ∃ result, insert.delivery? load = some (0, result) := by
  obtain ⟨path, encoding, hw⟩ := h.work
  unfold delivery?
  rw [hw]
  exact ⟨_, rfl⟩

/-- A prompt insert has its result before its time is over, unless there is no time at all. -/
theorem earliest_of_prompt (h : insert.fetch.Prompt) (hs : standard ≠ some 0) :
    ∃ result, insert.delivery? load = some (0, result) ∧
      insert.earliest? standard load = some (0, result) := by
  obtain ⟨result, hd⟩ := delivery_of_prompt h
  refine ⟨result, hd, ?_⟩
  unfold earliest?
  rw [hd, limit_of_prompt h]
  cases standard with
  | none => rfl
  | some limit =>
      have hpos : 0 < limit := Nat.pos_of_ne_zero fun hz => hs (by rw [hz])
      dsimp only
      rw [if_pos hpos]

theorem turn_of_prompt (h : insert.fetch.Prompt) {slot : Nat} {x : Task}
    (hx : x ∈ insert.tasks standard load slot) : x.turn = .first := by
  rcases mem_tasks.mp hx with ht | hw
  · obtain ⟨limit, -, rfl⟩ := timer?_eq_some.mp ht
    rfl
  · obtain ⟨path, encoding, hload⟩ := h.work
    unfold work? at hw
    rw [hload] at hw
    obtain ⟨⟨delay, result⟩, -, rfl⟩ := Option.map_eq_some_iff.mp hw
    dsimp only
    split
    · exact h.turn
    · rfl

end PendingInsert

namespace Document

/-- Whether all inserts of a document that are pending are prompt, and have time. -/
structure Prompt (d : Document) : Prop where
  fetches : ∀ (i : Nat) (insert : PendingInsert), d.pending[i]? = some insert →
    insert.fetch.Prompt
  timeout : d.options.timeout ≠ some 0

namespace Prompt

variable {d : Document} (h : d.Prompt)
include h

theorem decided (disk : Disk) : d.Decided disk := by
  intro i insert hi
  obtain ⟨result, hd⟩ := PendingInsert.delivery_of_prompt (h.fetches i insert hi)
  constructor
  · intro hn
    rw [hd] at hn
    cases hn
  · intro time result' ht hlimit
    rw [hd] at ht
    cases ht
    rw [PendingInsert.limit_of_prompt (h.fetches i insert hi)] at hlimit
    exact h.timeout hlimit

theorem finish (disk : Disk) : d.finish disk = 0 := by
  apply Nat.le_zero.mp
  apply finish_le
  intro i time result he
  obtain ⟨insert, hi, he⟩ := Option.bind_eq_some_iff.mp he
  obtain ⟨result', -, he'⟩ := PendingInsert.earliest_of_prompt (h.fetches i insert hi) h.timeout
  rw [he'] at he
  cases he
  exact Nat.le_refl 0

/-- A fetch of prompt inserts is over at once, whatever the horizon. -/
theorem fetch_prompt (ht : d.Tokenized) (disk : Disk) (horizon : Nat) : ∃ d' handed,
    d.fetch disk horizon = (d', handed,
      if d'.failed.isEmpty then .settled 0 else .failed 0 (.failedInserts d'.failed)) ∧
    d'.phase = .fetchedAllInserts ∧ d.Isolated disk d' := by
  have hd := h.decided disk
  have hf := h.finish disk
  have hsettled := @fetch_settled d disk ht hd horizon
  rw [hf] at hsettled
  refine hsettled fun t htask hdue => ?_
  -- what is due at the start is not left until later
  obtain ⟨i, insert, hi, hx⟩ := mem_beginFetch.mp htask
  have hturn := PendingInsert.turn_of_prompt (h.fetches i insert hi) hx
  have hlt : ¬ horizon < t.due := by omega
  simp [Task.beyond, hlt, hturn]

end Prompt

end Document

/-! ## Handlers that insert nothing else -/

/-- Whether a value is no other fetch than a prompt one. -/
def Value.Prompt (v : Value) : Prop := ∀ f, v = .fetch f → f.Prompt

theorem Value.prompt_null : Value.null.Prompt := fun _ h => by cases h

theorem Value.prompt_text (s : String) : (Value.text s).Prompt := fun _ h => by cases h

/-- Whether a handler makes no other fetches than prompt ones. -/
def Handler.Prompt (h : Handler) : Prop :=
  ∀ {value value' : Value} {tag left : Tag} {cursor : Cursor},
    (h value tag cursor).result = .ok (value', left) → value.Prompt → value'.Prompt

theorem Builtin.find?_prompt {name : String} {h : Handler} (hn : find? name = some h) :
    h.Prompt := by
  obtain ⟨before, after, ht, -⟩ := List.lookup_eq_some_iff.mp hn
  have hmem : (name, h) ∈ table := by
    rw [ht]
    exact List.mem_append_right _ List.mem_cons_self
  intro value value' tag left cursor hr hv
  have hinclude (path : Path) (encoding : Encoding) :
      (Value.fetch { work := .load 0 path encoding }).Prompt := by
    rintro f ⟨⟩
    exact ⟨⟨path, encoding, rfl⟩, rfl, rfl⟩
  simp only [table, List.mem_cons, Prod.mk.injEq, List.not_mem_nil, or_false] at hmem
  obtain ⟨-, rfl⟩ | ⟨-, rfl⟩ | ⟨-, rfl⟩ | ⟨-, rfl⟩ | ⟨-, rfl⟩ | ⟨-, rfl⟩ := hmem
  · cases hr
    exact hv
  · cases hr
    exact Value.prompt_null
  · cases hr
    exact Value.prompt_text _
  · unfold rejectLeftover at hr
    split at hr
    · cases hr
    · cases hr
      exact hv
  · unfold includeFile at hr
    dsimp only at hr
    split at hr
    · cases hr
      exact hinclude _ _
    · cases hr
      exact hinclude _ _
    · cases hr
    · cases hr
  · unfold echoVariable at hr
    split at hr
    · cases hr
    · cases hr
      exact Value.prompt_text _

theorem Constant.handler_prompt (c : Constant) : c.handler.Prompt := by
  intro value value' tag left cursor hr hv
  cases hr
  cases c <;> nofun

namespace Registry

/-- Whether all handlers that a registry has itself are prompt. -/
def Prompt (r : Registry) : Prop := ∀ key h, (key, CommandEntry.handler h) ∈ r.entries → h.Prompt

theorem Prompt.insert {r : Registry} (hr : r.Prompt) (key : String) {e : CommandEntry}
    (he : ∀ h, e = .handler h → h.Prompt) : (r.insert key e).Prompt := by
  intro key' h hmem
  unfold Registry.insert at hmem
  rcases List.mem_cons.mp hmem with heq | hmem
  · exact he h (Prod.mk.inj heq).2.symm
  · exact hr key' h (List.mem_filter.mp hmem).1

theorem Prompt.insert_alias {r : Registry} (hr : r.Prompt) (key target : String) :
    (r.insert key (.alias target)).Prompt :=
  hr.insert key fun h heq => by cases heq

theorem Prompt.configure {r : Registry} (hr : r.Prompt) (key value : String) :
    (r.configure key value).Prompt := by
  unfold Registry.configure
  dsimp only
  by_cases ho : key == Key.opening
  · rw [if_pos ho]
    exact hr
  · rw [if_neg ho]
    by_cases hc : key == Key.closing
    · rw [if_pos hc]
      exact hr
    · rw [if_neg hc]
      exact hr.insert_alias key value

theorem Prompt.resolve {r : Registry} (hr : r.Prompt) {key : String} {h : Handler}
    (hk : r.resolve key = some h) : h.Prompt := by
  refine resolve_of (fun key h hf => ?_) (fun _ _ hb => Builtin.find?_prompt hb) hk
  obtain ⟨before, after, ht, -⟩ := List.lookup_eq_some_iff.mp hf
  refine hr key h ?_
  rw [ht]
  exact List.mem_append_right _ List.mem_cons_self

/-- What is inserted for a tag is prompt. -/
theorem Prompt.dispatch {r : Registry} (hr : r.Prompt) {strict : Bool} {tag left : Tag}
    {cursor : Cursor} {f : Fetch}
    (h : (r.dispatch strict tag cursor).result = .ok (.later f, left)) : f.Prompt := by
  rw [dispatch_eq] at h
  obtain ⟨⟨value, left', handled⟩, hc, h⟩ := Reply.bind_eq_ok h
  have hvalue : Value.null.Prompt → value.Prompt :=
    @chain_of r (fun x y => x.1.Prompt → y.1.Prompt) (fun _ => id) (fun h h' hv => h' (h hv))
      (fun key h hk _ _ _ _ _ hh => hr.resolve hk hh) _ _ _ _ _ hc
  unfold conclude at h
  dsimp only at h
  split at h
  · cases h
  · obtain ⟨replaced, hreplaced, h⟩ := Reply.bind_eq_ok h
    cases h
    unfold replacement at hreplaced
    split at hreplaced
    · cases hreplaced
    · split at hreplaced
      · cases hreplaced
      · cases hreplaced
        exact hvalue Value.prompt_null f rfl
      · cases hreplaced

end Registry

/-- The handlers of settings are prompt. -/
theorem Settings.registry_prompt (s : Settings) : s.registry.Prompt := by
  have hcommands : ∀ (cs : List (String × String)) (r : Registry), r.Prompt →
      (cs.foldl (fun r c => r.configure c.1 c.2) r).Prompt := by
    intro cs
    induction cs with
    | nil => exact fun _ hr => hr
    | cons c cs ih => exact fun r hr => ih _ (hr.configure c.1 c.2)
  have hconstants : ∀ (cs : List (String × Constant)) (r : Registry), r.Prompt →
      (cs.foldl (fun r c => r.insert c.1 (.handler c.2.handler)) r).Prompt := by
    intro cs
    induction cs with
    | nil => exact fun _ hr => hr
    | cons c cs ih =>
        refine fun r hr => ih _ (hr.insert c.1 fun h heq => ?_)
        cases heq
        exact c.2.handler_prompt
  have hstandard : Registry.standard.Prompt := fun _ _ h => absurd h List.not_mem_nil
  have hbuiltin := (hstandard.insert_alias "include" "include").insert_alias "echo" "echo"
  unfold Settings.registry
  exact hconstants s.constants _ (hcommands s.commands _ hbuiltin)

/-- Where all handlers are prompt, so is every insert of a source that is split. -/
theorem Document.tokenize_prompt {d d' : Document} {notes : List String} (hr : d.registry.Prompt)
    (ht : d.options.timeout ≠ some 0) (h : d.tokenize = (d', notes, .ok ())) : d'.Prompt := by
  obtain ⟨s, hs, -, rfl⟩ := tokenize_eq_ok h
  obtain ⟨pieces, hc, -⟩ := scan_cut hs
  refine ⟨fun i insert hi => ?_, ht⟩
  rw [show _ = s.pending[i]? from rfl, hc.pending] at hi
  obtain ⟨p, hp, hinsert⟩ := Option.bind_eq_some_iff.mp hi
  have hstands := hc.stands i p hp
  cases p with
  | literal text => cases hinsert
  | command x replacement left =>
      cases replacement with
      | text s => cases hinsert
      | later f =>
          cases hinsert
          have hresult := hstands.result
          rw [hstands.reply] at hresult
          exact hr.dispatch hresult

end Inlay
