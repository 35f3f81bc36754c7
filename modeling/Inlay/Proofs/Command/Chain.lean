import Inlay.Command.Recipe
import Inlay.Proofs.Command.Route

set_option autoImplicit false

/-! # What comes of a chain

A chain does to a value and a tag what its handlers do (`Registry.chain_of`). All that the handlers
here do to a tag is to consume its attributes (`Handler.Consumes`), so what a chain leaves is the tag
that stood in the source, less attributes. A chain that ends in a falsy value keeps it, and the one
thing that can still go wrong is a leftover attribute (`Registry.dispatch_falsy`).
-/

namespace Inlay

/-! ## Handlers that consume -/

/-- Whether a tag differs from an earlier one in nothing but attributes that were consumed. -/
def Tag.Consumed (tag left : Tag) : Prop :=
  ∃ attrs, attrs.Sublist tag.attrs ∧ left = { tag with attrs }

namespace Tag.Consumed

theorem refl (tag : Tag) : tag.Consumed tag := ⟨tag.attrs, List.Sublist.refl _, rfl⟩

theorem trans {tag tag' tag'' : Tag} (h : tag.Consumed tag') (h' : tag'.Consumed tag'') :
    tag.Consumed tag'' := by
  obtain ⟨attrs, hs, rfl⟩ := h
  obtain ⟨attrs', hs', rfl⟩ := h'
  exact ⟨attrs', hs'.trans hs, rfl⟩

theorem without (tag : Tag) (key : String) : tag.Consumed (tag.without key) :=
  ⟨_, List.eraseP_sublist, rfl⟩

theorem source {tag left : Tag} (h : tag.Consumed left) : left.source = tag.source := by
  obtain ⟨attrs, -, rfl⟩ := h
  rfl

end Tag.Consumed

/-- Whether a handler does nothing to a tag but consume its attributes. -/
def Handler.Consumes (h : Handler) : Prop :=
  ∀ {value value' : Value} {tag left : Tag} {cursor : Cursor},
    (h value tag cursor).result = .ok (value', left) → tag.Consumed left

/-- The built-in handlers only consume. -/
theorem Builtin.find?_consumes {name : String} {h : Handler} (hn : find? name = some h) :
    h.Consumes := by
  obtain ⟨before, after, ht, -⟩ := List.lookup_eq_some_iff.mp hn
  have hmem : (name, h) ∈ table := by
    rw [ht]
    exact List.mem_append_right _ List.mem_cons_self
  intro value value' tag left cursor hr
  simp only [table, List.mem_cons, Prod.mk.injEq, List.not_mem_nil, or_false] at hmem
  obtain ⟨-, rfl⟩ | ⟨-, rfl⟩ | ⟨-, rfl⟩ | ⟨-, rfl⟩ | ⟨-, rfl⟩ | ⟨-, rfl⟩ := hmem
  · cases hr
    exact .refl tag
  · cases hr
    exact .refl tag
  · cases hr
    exact .refl tag
  · unfold rejectLeftover at hr
    split at hr
    · cases hr
    · cases hr
      exact .refl tag
  · unfold includeFile at hr
    dsimp only at hr
    split at hr
    · cases hr
      exact (Tag.Consumed.without tag _).trans (.without _ _)
    · cases hr
      exact (Tag.Consumed.without tag _).trans (.without _ _)
    · cases hr
    · cases hr
  · unfold echoVariable at hr
    split at hr
    · cases hr
    · cases hr
      exact (Tag.Consumed.without tag _).trans (.without _ _)

section Recipes

variable (value : Value) (tag : Tag) (cursor : Cursor)

theorem TextPart.evaluate_consumed (part : TextPart) :
    tag.Consumed (part.evaluate value tag cursor).2 := by
  cases part with
  | consumed key fallback => exact .without tag key
  | _ => exact .refl tag

theorem evaluateParts_consumed (parts : List TextPart) :
    tag.Consumed (evaluateParts parts value tag cursor).2 := by
  unfold evaluateParts
  generalize "" = text
  induction parts generalizing text tag with
  | nil => exact .refl tag
  | cons part parts ih => exact (part.evaluate_consumed value tag cursor).trans (ih _ _)

theorem FetchPlan.build_consumed (plan : FetchPlan) :
    tag.Consumed (plan.build value tag cursor).2 := by
  unfold build
  cases plan.work with
  | text parts => exact evaluateParts_consumed value tag cursor parts
  | load parts => exact evaluateParts_consumed value tag cursor parts
  | _ => exact .refl tag

theorem Outcome.build_consumed (o : Outcome) : tag.Consumed (o.build value tag cursor).2 := by
  unfold build
  cases o with
  | text parts => exact evaluateParts_consumed value tag cursor parts
  | fetch plan => exact plan.build_consumed value tag cursor
  | refilter rule => cases value <;> exact .refl tag
  | _ => exact .refl tag

end Recipes

/-- The handlers that are described by data only consume. -/
theorem Recipe.handler_consumes (recipe : Recipe) : recipe.handler.Consumes := by
  intro value value' tag left cursor hr
  have hconsume : ∀ (keys : List String) (tag : Tag),
      tag.Consumed (keys.foldl Tag.without tag) := by
    intro keys
    induction keys with
    | nil => exact fun tag => .refl tag
    | cons key keys ih => exact fun tag => (Tag.Consumed.without tag key).trans (ih _)
  unfold handler at hr
  extract_lets rest at hr
  -- all but the note works on the tag that the note has left
  have hrest : ∀ tag₁, (rest tag₁).result = .ok (value', left) → tag₁.Consumed left := by
    intro tag₁ h
    dsimp only [rest] at h
    split at h
    · cases h
    · split at h
      · cases h
      · cases h
      · have hbuild : recipe.outcome.build value _ cursor = (value', left) := Except.ok.inj h
        have hleft := Outcome.build_consumed value
          (recipe.consume.foldl Tag.without tag₁) cursor recipe.outcome
        rw [hbuild] at hleft
        exact (hconsume _ _).trans hleft
  cases hn : recipe.note with
  | none =>
      rw [hn] at hr
      exact hrest tag hr
  | some parts =>
      rw [hn] at hr
      exact (evaluateParts_consumed value tag cursor parts).trans (hrest _ hr)

namespace Registry

/-- What holds of the handlers of a registry and of the built-in ones holds of every handler that a
key leads to. -/
theorem resolve_of {r : Registry} {P : Handler → Prop}
    (hr : ∀ key h, r.find? key = some (.handler h) → P h)
    (hb : ∀ name h, Builtin.find? name = some h → P h) {key : String} {h : Handler}
    (hk : r.resolve key = some h) : P h := by
  unfold resolve at hk
  split at hk
  · cases hk
  next hfind =>
    cases hk
    exact hr _ _ hfind
  next target hfind =>
    split at hk
    next htarget =>
      cases hk
      exact hr _ _ htarget
    next => exact hb _ _ hk

/-- If the entries of a registry only consume, so does every handler that a key leads to. -/
theorem resolve_consumes {r : Registry}
    (hr : ∀ key h, r.find? key = some (.handler h) → h.Consumes) {key : String} {h : Handler}
    (hk : r.resolve key = some h) : h.Consumes :=
  resolve_of hr (fun _ _ hb => Builtin.find?_consumes hb) hk

/-- What every handler does to the value and the tag, if it can be done again and again, a chain of
handlers does too. -/
theorem chain_of {r : Registry} {R : Value × Tag → Value × Tag → Prop} (hrefl : ∀ x, R x x)
    (htrans : ∀ {x y z}, R x y → R y z → R x z)
    (hr : ∀ key h, r.resolve key = some h → ∀ {value value' : Value} {tag left : Tag}
      {cursor : Cursor}, (h value tag cursor).result = .ok (value', left) →
        R (value, tag) (value', left))
    {tag left : Tag} {cursor : Cursor} {value : Value} {handled : Bool}
    (hc : (r.chain tag cursor).result = .ok (value, left, handled)) :
    R (.null, tag) (value, left) := by
  obtain ⟨visits, outcome, h⟩ := exists_route r cursor Station.all .null tag
  rw [h.chain_eq] at hc
  cases outcome with
  | error e => cases hc
  | ok x =>
      cases hc
      refine h.relates hrefl htrans ?_ rfl
      intro key handler hk value value' tag left hh
      exact hr key handler hk hh

/-- A chain of handlers that only consume does so too. -/
theorem chain_consumed {r : Registry} (hr : ∀ key h, r.resolve key = some h → h.Consumes)
    {tag left : Tag} {cursor : Cursor} {value : Value} {handled : Bool}
    (hc : (r.chain tag cursor).result = .ok (value, left, handled)) : tag.Consumed left :=
  @chain_of r (fun x y => x.2.Consumed y.2) (fun x => .refl x.2) (fun h h' => h.trans h')
    (fun key h hk _ _ _ _ _ hh => hr key h hk hh) _ _ _ _ _ hc

/-! ## Tags that are kept -/

/-- Whether the chain of a tag keeps it: no handler fails, the last value is falsy, and the handlers
did nothing to the tag but consume its attributes, so that its source is still there. -/
def Keeps (r : Registry) (tag : Tag) (cursor : Cursor) : Prop :=
  ∃ value left handled, (r.chain tag cursor).result = .ok (value, left, handled) ∧
    value.isFalsy = true ∧ left.source = tag.source

/-- Handlers that only consume keep a tag if their chain ends in a falsy value. -/
theorem keeps_of_consumes {r : Registry} (hr : ∀ key h, r.resolve key = some h → h.Consumes)
    {tag left : Tag} {cursor : Cursor} {value : Value} {handled : Bool}
    (hc : (r.chain tag cursor).result = .ok (value, left, handled))
    (hf : value.isFalsy = true) : r.Keeps tag cursor :=
  ⟨value, left, handled, hc, hf, (chain_consumed hr hc).source⟩

/-- Where no key leads to a handler every tag is kept. -/
theorem keeps_of_resolve_none {r : Registry} (h : ∀ key, r.resolve key = none) (tag : Tag)
    (cursor : Cursor) : r.Keeps tag cursor := by
  have hconsumes : ∀ key handler, r.resolve key = some handler → handler.Consumes := by
    intro key handler hkey
    rw [h key] at hkey
    cases hkey
  have hchain : (r.chain tag cursor).result = .ok (.null, tag, false) := by
    unfold chain
    simp only [run_of_none (h _)]
    rfl
  exact keeps_of_consumes hconsumes hchain rfl

section Falsy

variable {r : Registry} {strict handled : Bool} {tag left : Tag} {cursor : Cursor} {value : Value}

/-- A falsy value keeps the tag, unless attributes are left over. -/
theorem dispatch_falsy (h : (r.chain tag cursor).result = .ok (value, left, handled))
    (hf : value.isFalsy = true) : (r.dispatch strict tag cursor).result =
      match if handled && strict then left.leftoverError? else none with
      | some e => .error e
      | none => .ok (.text left.source, left) := by
  rw [dispatch_eq, Reply.bind_result h, conclude]
  cases if handled && strict then left.leftoverError? else none with
  | some e => rfl
  | none =>
      unfold replacement
      rw [if_pos hf]
      rfl

theorem eq_of_dispatch_falsy {left' : Tag} {replacement : Replacement}
    (h : (r.chain tag cursor).result = .ok (value, left, handled)) (hf : value.isFalsy = true)
    (hr : (r.dispatch strict tag cursor).result = .ok (replacement, left')) :
    replacement = .text left.source ∧ left' = left := by
  rw [dispatch_falsy h hf] at hr
  split at hr
  · cases hr
  · cases hr
    exact ⟨rfl, rfl⟩

/-- Only attributes that are left over can make an error of a falsy value. -/
theorem leftover_of_dispatch_falsy {e : TagError}
    (h : (r.chain tag cursor).result = .ok (value, left, handled)) (hf : value.isFalsy = true)
    (hr : (r.dispatch strict tag cursor).result = .error e) :
    handled = true ∧ strict = true ∧ left.leftoverError? = some e := by
  rw [dispatch_falsy h hf] at hr
  by_cases hb : (handled && strict) = true
  · rw [if_pos hb] at hr
    obtain ⟨hh, hs⟩ := Bool.and_eq_true_iff.mp hb
    refine ⟨hh, hs, ?_⟩
    cases hl : left.leftoverError? with
    | none =>
        rw [hl] at hr
        cases hr
    | some e' =>
        rw [hl] at hr
        cases hr
        rfl
  · rw [if_neg hb] at hr
    cases hr

end Falsy

end Registry

end Inlay
