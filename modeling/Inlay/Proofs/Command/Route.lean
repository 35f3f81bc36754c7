import Inlay.Command.Chain

set_option autoImplicit false

/-! # The route of a tag through its handlers

To dispatch a tag is to run its chain of handlers and to draw the conclusion from what comes out of
it (`Registry.dispatch_eq`). The chain itself never looks at whether leftover attributes count; that
is for the conclusion.

A chain has three stations. At each of them stands the handler of a key, if the key leads to one: the
handler before all, that of the tag's own key or else the one for other tags, and the handler after
all. A tag takes its route from station to station (`Registry.Route`): a station without a handler
changes nothing, a handler is given what the one before it left, and the first that fails ends the
route. What comes out at the end is judged once (`Verdict`). A dispatch is one such route with its
verdict, and there is only one (`dispatch_iff`).
-/

namespace Inlay

namespace Reply

variable {α β γ : Type}

/-- The notes of three replies in a row are joined either way. -/
theorem bind_assoc (r : Reply α) (f : α → Reply β) (g : β → Reply γ) :
    (r.bind f).bind g = r.bind fun a => (f a).bind g := by
  obtain ⟨notes, result⟩ := r
  cases result with
  | error e => rfl
  | ok a =>
      cases hf : (f a).result with
      | error e => simp [Reply.bind, hf]
      | ok b => simp [Reply.bind, hf]

theorem bind_of_ok {r : Reply α} {a : α} (h : r.result = .ok a) (f : α → Reply β) :
    r.bind f = ⟨r.notes ++ (f a).notes, (f a).result⟩ := by
  unfold Reply.bind
  rw [h]

theorem bind_of_error {r : Reply α} {e : TagError} (h : r.result = .error e) (f : α → Reply β) :
    r.bind f = ⟨r.notes, .error e⟩ := by
  unfold Reply.bind
  rw [h]

theorem bind_result {r : Reply α} {a : α} (h : r.result = .ok a) (f : α → Reply β) :
    (r.bind f).result = (f a).result := by
  rw [bind_of_ok h]

/-- A reply that goes on to a value has come to a value before. -/
theorem bind_eq_ok {r : Reply α} {f : α → Reply β} {b : β} (h : (r.bind f).result = .ok b) :
    ∃ a, r.result = .ok a ∧ (f a).result = .ok b := by
  cases hr : r.result with
  | ok a => exact ⟨a, rfl, bind_result hr f ▸ h⟩
  | error e =>
      rw [bind_of_error hr] at h
      cases h

end Reply

/-! ## Chains and conclusions -/

namespace Registry

/-- Run the handlers of a tag: the value that comes out, the tag as they leave it, and whether there
was a handler for the command or for other tags. -/
def chain (r : Registry) (tag : Tag) (cursor : Cursor) : Reply (Value × Tag × Bool) := do
  let (value, tag, _) ← r.run Key.before .null tag cursor
  let (value, tag, ran) ← r.run (commandKey tag) value tag cursor
  let (value, tag, handled) ←
    if ran then pure (value, tag, true) else r.run Key.other value tag cursor
  let (value, tag, _) ← r.run Key.after value tag cursor
  pure (value, tag, handled)

/-- Draw the conclusion from what came out of a chain. Attributes left over are found out first. -/
def conclude (strict : Bool) : Value × Tag × Bool → Reply (Replacement × Tag)
  | (value, tag, handled) =>
    match if handled && strict then tag.leftoverError? else none with
    | some e => Reply.fail e
    | none => (replacement value tag).bind fun replaced => Reply.pure (replaced, tag)

/-- **A dispatch is a chain and its conclusion.** -/
theorem dispatch_eq (r : Registry) (strict : Bool) (tag : Tag) (cursor : Cursor) :
    r.dispatch strict tag cursor = (r.chain tag cursor).bind (conclude strict) := by
  have hassoc {α β γ : Type} (x : Reply α) (f : α → Reply β) (g : β → Reply γ) :
      (x >>= f).bind g = x >>= fun a => (f a).bind g := Reply.bind_assoc x f g
  unfold dispatch chain
  simp only [hassoc]
  congr 1
  funext ⟨value, tag, _⟩
  congr 1
  funext ⟨value, tag, ran⟩
  -- the conclusion is drawn behind the handler after all, whichever handler ran before it
  have hafter (value : Value) (tag : Tag) (handled : Bool) :
      ((r.run Key.after value tag cursor) >>= fun x =>
        (pure (x.1, x.2.1, handled) : Reply _)).bind (conclude strict) =
      (r.run Key.after value tag cursor) >>= fun x => conclude strict (x.1, x.2.1, handled) := by
    rw [hassoc]
    rfl
  cases ran with
  | true => exact (hafter value tag true).symm
  | false =>
      show (r.run Key.other value tag cursor >>= _) =
        (r.run Key.other value tag cursor >>= _).bind (conclude strict)
      rw [hassoc]
      congr 1
      funext ⟨value, tag, handled⟩
      exact (hafter value tag handled).symm

theorem run_of_none {r : Registry} {key : String} (h : r.resolve key = none) (value : Value)
    (tag : Tag) (cursor : Cursor) : r.run key value tag cursor = .pure (value, tag, false) := by
  unfold run
  rw [h]

end Registry

/-! ## Stations -/

/-- A place in the chain of a tag where a handler may stand. -/
inductive Station where
  /-- Before all other handlers. -/
  | before
  /-- The place of the tag's own handler, or else of the one for other tags. -/
  | middle
  /-- After all other handlers. -/
  | after
  deriving DecidableEq

/-- The stations of a chain in their order. -/
def Station.all : List Station := [.before, .middle, .after]

/-- A handler that ran for a tag, with the value and the tag that it was given. -/
structure Visit where
  station : Station
  handler : Handler
  value : Value
  tag : Tag

/-- What the handler replied. -/
def Visit.reply (v : Visit) (cursor : Cursor) : Reply (Value × Tag) :=
  v.handler v.value v.tag cursor

/-- The notes that handlers left, in the order in which they ran. -/
def notesOf (visits : List Visit) (cursor : Cursor) : List String :=
  visits.flatMap fun v => (v.reply cursor).notes

namespace Registry

/-- The key of the handler at a station, for the tag as it comes there. -/
def keyAt (r : Registry) (station : Station) (tag : Tag) : String :=
  match station with
  | .before => Key.before
  | .middle => if (r.resolve (commandKey tag)).isSome then commandKey tag else Key.other
  | .after => Key.after

/-- How a value and a tag pass along stations: the handlers that run, and what comes out. -/
inductive Route (r : Registry) (cursor : Cursor) :
    List Station → Value → Tag → List Visit → Except TagError (Value × Tag) → Prop where
  | arrived {value : Value} {tag : Tag} : Route r cursor [] value tag [] (.ok (value, tag))
  /-- No handler stands here, and the value is passed through. -/
  | missing {station : Station} {stations : List Station} {value : Value} {tag : Tag}
    {visits : List Visit} {outcome : Except TagError (Value × Tag)}
    (hk : r.resolve (r.keyAt station tag) = none)
    (h : Route r cursor stations value tag visits outcome) :
    Route r cursor (station :: stations) value tag visits outcome
  /-- The handler passes its value and the tag on. -/
  | passed {station : Station} {stations : List Station} {value value' : Value} {tag tag' : Tag}
    {handler : Handler} {visits : List Visit} {outcome : Except TagError (Value × Tag)}
    (hk : r.resolve (r.keyAt station tag) = some handler)
    (hr : (handler value tag cursor).result = .ok (value', tag'))
    (h : Route r cursor stations value' tag' visits outcome) :
    Route r cursor (station :: stations) value tag (⟨station, handler, value, tag⟩ :: visits)
      outcome
  /-- The handler fails, and no other runs. -/
  | failed {station : Station} {stations : List Station} {value : Value} {tag : Tag}
    {handler : Handler} {e : TagError}
    (hk : r.resolve (r.keyAt station tag) = some handler)
    (hr : (handler value tag cursor).result = .error e) :
    Route r cursor (station :: stations) value tag [⟨station, handler, value, tag⟩] (.error e)

variable {r : Registry} {cursor : Cursor}

theorem exists_route (r : Registry) (cursor : Cursor) (stations : List Station) (value : Value)
    (tag : Tag) : ∃ visits outcome, r.Route cursor stations value tag visits outcome := by
  induction stations generalizing value tag with
  | nil => exact ⟨[], _, .arrived⟩
  | cons station stations ih =>
      cases hk : r.resolve (r.keyAt station tag) with
      | none =>
          obtain ⟨visits, outcome, h⟩ := ih value tag
          exact ⟨visits, outcome, .missing hk h⟩
      | some handler =>
          cases hr : (handler value tag cursor).result with
          | error e => exact ⟨_, _, .failed hk hr⟩
          | ok x =>
              obtain ⟨visits, outcome, h⟩ := ih x.1 x.2
              exact ⟨_, outcome, .passed hk hr h⟩

/-- Every station is visited once at most, and in its turn. -/
theorem Route.ordered {stations : List Station} {value : Value} {tag : Tag} {visits : List Visit}
    {outcome : Except TagError (Value × Tag)}
    (h : r.Route cursor stations value tag visits outcome) :
    (visits.map Visit.station).Sublist stations := by
  induction h with
  | arrived => exact .slnil
  | missing _ _ ih => exact ih.cons _
  | passed _ _ _ ih => exact ih.cons_cons _
  | failed _ _ => exact (List.nil_sublist _).cons_cons _

/-- What every handler does to the value and the tag, a route to its end does too. -/
theorem Route.relates {R : Value × Tag → Value × Tag → Prop} (hrefl : ∀ x, R x x)
    (htrans : ∀ {x y z}, R x y → R y z → R x z)
    (hr : ∀ key handler, r.resolve key = some handler → ∀ {value value' : Value} {tag left : Tag},
      (handler value tag cursor).result = .ok (value', left) → R (value, tag) (value', left))
    {stations : List Station} {value : Value} {tag : Tag} {visits : List Visit}
    {outcome : Except TagError (Value × Tag)}
    (h : r.Route cursor stations value tag visits outcome) {x : Value × Tag}
    (hx : outcome = .ok x) : R (value, tag) x := by
  induction h with
  | arrived =>
      cases hx
      exact hrefl _
  | missing _ _ ih => exact ih hx
  | passed hk hh _ ih => exact htrans (hr _ _ hk hh) (ih hx)
  | failed _ _ => cases hx

/-! ## The chain as a route -/

/-- Run the handlers at stations one after another, and tell whether there was one in the middle. -/
def along (r : Registry) (cursor : Cursor) :
    List Station → Value × Tag × Bool → Reply (Value × Tag × Bool)
  | [], x => pure x
  | station :: stations, (value, tag, handled) => do
    let (value, tag, ran) ← r.run (r.keyAt station tag) value tag cursor
    r.along cursor stations (value, tag, handled || (station == .middle && ran))

end Registry

namespace Registry

variable {r : Registry} {cursor : Cursor}

theorem run_of_some {key : String} {handler : Handler} (h : r.resolve key = some handler)
    (value : Value) (tag : Tag) :
    r.run key value tag cursor =
      (handler value tag cursor).bind fun x => Reply.pure (x.1, x.2, true) := by
  unfold run
  rw [h]
  rfl

/-- The handler for other tags stands in for that of the tag's own key. -/
theorem run_middle {α : Type} (value : Value) (tag : Tag) (f : Value × Tag × Bool → Reply α) :
    ((r.run (commandKey tag) value tag cursor).bind fun x =>
      if x.2.2 then (Reply.pure (x.1, x.2.1, true)).bind f
      else (r.run Key.other x.1 x.2.1 cursor).bind f) =
      (r.run (r.keyAt .middle tag) value tag cursor).bind f := by
  unfold keyAt
  dsimp only
  cases hk : r.resolve (commandKey tag) with
  | none =>
      rw [run_of_none hk]
      rfl
  | some handler =>
      rw [Option.isSome_some, if_pos rfl, run_of_some hk, Reply.bind_assoc, Reply.bind_assoc]
      rfl

theorem chain_eq_along (r : Registry) (tag : Tag) (cursor : Cursor) :
    r.chain tag cursor = r.along cursor Station.all (.null, tag, false) := by
  have hafter (value : Value) (tag : Tag) (handled : Bool) :
      ((r.run Key.after value tag cursor).bind fun x => Reply.pure (x.1, x.2.1, handled)) =
        r.along cursor [.after] (value, tag, handled) := by
    unfold along
    show _ = (r.run Key.after value tag cursor).bind _
    congr 1
    funext ⟨value, tag, ran⟩
    show _ = Reply.pure (value, tag, handled || (false && ran))
    rw [Bool.false_and, Bool.or_false]
  have hmiddle (value : Value) (tag : Tag) :
      ((r.run (commandKey tag) value tag cursor).bind fun x =>
        if x.2.2 then (Reply.pure (x.1, x.2.1, true)).bind fun x => r.along cursor [.after] x
        else (r.run Key.other x.1 x.2.1 cursor).bind fun x => r.along cursor [.after] x) =
        r.along cursor [.middle, .after] (value, tag, false) :=
    run_middle value tag _
  show (r.run Key.before .null tag cursor).bind _ = (r.run Key.before .null tag cursor).bind _
  congr 1
  funext ⟨value, tag, ran⟩
  refine Eq.trans ?_ (hmiddle value tag)
  show (r.run (commandKey tag) value tag cursor).bind _ = _
  congr 1
  funext ⟨value, tag, ran⟩
  cases ran with
  | true => exact hafter value tag true
  | false =>
      show (r.run Key.other value tag cursor).bind _ = (r.run Key.other value tag cursor).bind _
      congr 1
      funext ⟨value, tag, handled⟩
      exact hafter value tag handled

section Along

variable {station : Station} {stations : List Station} {value : Value} {tag : Tag} {handled : Bool}

theorem along_of_none (hk : r.resolve (r.keyAt station tag) = none) :
    r.along cursor (station :: stations) (value, tag, handled) =
      r.along cursor stations (value, tag, handled) := by
  show (r.run (r.keyAt station tag) value tag cursor).bind _ = _
  rw [run_of_none hk]
  show r.along cursor stations (value, tag, handled || (station == .middle && false)) = _
  rw [Bool.and_false, Bool.or_false]

theorem along_of_some {handler : Handler} (hk : r.resolve (r.keyAt station tag) = some handler) :
    r.along cursor (station :: stations) (value, tag, handled) =
      (handler value tag cursor).bind fun x =>
        r.along cursor stations (x.1, x.2, handled || station == .middle) := by
  show (r.run (r.keyAt station tag) value tag cursor).bind _ = _
  rw [run_of_some hk, Reply.bind_assoc]
  congr 1
  funext x
  show r.along cursor stations (x.1, x.2, handled || (station == .middle && true)) = _
  rw [Bool.and_true]

end Along

/-- What a route comes to is what comes of running its handlers. -/
theorem Route.along_eq {stations : List Station} {value : Value} {tag : Tag} {visits : List Visit}
    {outcome : Except TagError (Value × Tag)}
    (h : r.Route cursor stations value tag visits outcome) (handled : Bool) :
    r.along cursor stations (value, tag, handled) =
      ⟨notesOf visits cursor, outcome.map fun x =>
        (x.1, x.2, handled || visits.any fun v => v.station == .middle)⟩ := by
  induction h generalizing handled with
  | arrived =>
      show Reply.pure _ = _
      rw [List.any_nil, Bool.or_false]
      rfl
  | missing hk _ ih => rw [along_of_none hk, ih]
  | passed hk hr _ ih =>
      rw [along_of_some hk, Reply.bind_of_ok hr, ih, List.any_cons, ← Bool.or_assoc]
      rfl
  | @failed _ _ value tag handler _ hk hr =>
      rw [along_of_some hk, Reply.bind_of_error hr]
      show _ = Reply.mk ((handler value tag cursor).notes ++ []) _
      rw [List.append_nil]
      rfl

/-- The chain of a tag comes to what its route comes to. -/
theorem Route.chain_eq {tag : Tag} {visits : List Visit} {outcome : Except TagError (Value × Tag)}
    (h : r.Route cursor Station.all .null tag visits outcome) :
    r.chain tag cursor = ⟨notesOf visits cursor, outcome.map fun x =>
      (x.1, x.2, visits.any fun v => v.station == .middle)⟩ :=
  (chain_eq_along r tag cursor).trans (h.along_eq false)

/-! ## The verdict -/

/-- What becomes of a tag whose route ends with a value. `counts` says whether attributes left over
are an error; they are found out before anything else. -/
inductive Verdict (counts : Prop) (left : Tag) :
    Value → Except TagError (Replacement × Tag) → Prop where
  | leftover {value : Value} {e : TagError} (hc : counts) (he : left.leftoverError? = some e) :
    Verdict counts left value (.error e)
  /-- The tag is kept as it stands in the source. -/
  | kept {value : Value} (hc : counts → left.leftoverError? = none)
    (hf : value.isFalsy = true) : Verdict counts left value (.ok (.text left.source, left))
  /-- A text takes the place of the tag, an empty one too. -/
  | text {s : String} (hc : counts → left.leftoverError? = none) :
    Verdict counts left (.text s) (.ok (.text s, left))
  | later {f : Fetch} (hc : counts → left.leftoverError? = none) :
    Verdict counts left (.fetch f) (.ok (.later f, left))
  | unsupported {value : Value} (hc : counts → left.leftoverError? = none)
    (hv : value = .bool true ∨ ∃ n, value = .number n ∧ n.isZero = false ∧ n.isNaN = false) :
    Verdict counts left value
      (.error (left.error ("Unsupported return value from command handler: " ++ value.shown)))

theorem conclude_notes (strict : Bool) (x : Value × Tag × Bool) :
    (conclude strict x).notes = [] := by
  obtain ⟨value, left, handled⟩ := x
  unfold conclude
  dsimp only
  split
  · rfl
  · unfold replacement
    split
    · rfl
    · split <;> rfl

/-- A tag of which nothing counts as left over is replaced as its value says. -/
theorem conclude_of_used {strict handled : Bool} {left : Tag} (value : Value)
    (hc : handled = true ∧ strict = true → left.leftoverError? = none) :
    conclude strict (value, left, handled) =
      (replacement value left).bind fun replaced => Reply.pure (replaced, left) := by
  have hnone : (if handled && strict then left.leftoverError? else none) = none := by
    split
    · rename_i hcounts
      exact hc (Bool.and_eq_true_iff.mp hcounts)
    · rfl
  unfold conclude
  dsimp only
  rw [hnone]

/-- The ends of a value of which nothing counts as left over. -/
theorem verdict_replacement {counts : Prop} {left : Tag} (value : Value)
    (hc : counts → left.leftoverError? = none) :
    Verdict counts left value
      ((replacement value left).bind fun replaced => Reply.pure (replaced, left)).result := by
  unfold replacement
  by_cases hf : value.isFalsy = true
  · rw [if_pos hf]
    exact .kept hc hf
  · rw [if_neg hf]
    cases value with
    | null => exact absurd rfl hf
    | bool b =>
        cases b with
        | false => exact absurd rfl hf
        | true => exact .unsupported hc (.inl rfl)
    | number n =>
        have hn : n.isZero = false ∧ n.isNaN = false := by simpa [Value.isFalsy] using hf
        exact .unsupported hc (.inr ⟨n, rfl, hn⟩)
    | text s => exact .text hc
    | fetch f => exact .later hc

theorem verdict_conclude (strict handled : Bool) (value : Value) (left : Tag) :
    Verdict (handled = true ∧ strict = true) left value
      (conclude strict (value, left, handled)).result := by
  by_cases hc : handled = true ∧ strict = true → left.leftoverError? = none
  · rw [conclude_of_used value hc]
    exact verdict_replacement value hc
  · obtain ⟨hcounts, hl⟩ := Classical.not_imp.mp hc
    obtain ⟨e, he⟩ := Option.ne_none_iff_exists'.mp hl
    unfold conclude
    dsimp only
    rw [if_pos (Bool.and_eq_true_iff.mpr hcounts), he]
    exact .leftover hcounts he

/-- There is no other verdict than the one that is drawn. -/
theorem Verdict.conclude_result {strict handled : Bool} {left : Tag} {value : Value}
    {result : Except TagError (Replacement × Tag)}
    (h : Verdict (handled = true ∧ strict = true) left value result) :
    (conclude strict (value, left, handled)).result = result := by
  cases h with
  | leftover hc he =>
      unfold conclude
      dsimp only
      rw [if_pos (Bool.and_eq_true_iff.mpr hc), he]
      rfl
  | kept hc hf =>
      rw [conclude_of_used value hc]
      unfold replacement
      rw [if_pos hf]
      rfl
  | text hc => rw [conclude_of_used _ hc]; rfl
  | later hc => rw [conclude_of_used _ hc]; rfl
  | unsupported hc hv =>
      rw [conclude_of_used value hc]
      rcases hv with rfl | ⟨n, rfl, hz, hn⟩
      · rfl
      · have hf : (Value.number n).isFalsy = false := by simp [Value.isFalsy, hz, hn]
        unfold replacement
        rw [hf]
        rfl

/-! ## Dispatches -/

/-- A route decides the dispatch of its tag. -/
theorem Route.dispatch_eq {tag : Tag} {visits : List Visit}
    {outcome : Except TagError (Value × Tag)} (strict : Bool)
    (h : r.Route cursor Station.all .null tag visits outcome) :
    r.dispatch strict tag cursor = ⟨notesOf visits cursor, outcome.bind fun x =>
      (conclude strict (x.1, x.2, visits.any fun v => v.station == .middle)).result⟩ := by
  rw [Registry.dispatch_eq, h.chain_eq]
  cases outcome with
  | error e => rfl
  | ok x =>
      rw [Reply.bind_of_ok rfl, conclude_notes, List.append_nil]
      rfl

/-- **A dispatch is the route of its tag through the chain, and the verdict on what comes out.** The
handlers on the route run once each, in the order of their stations, and leave their notes in that
order; the first one that fails gives the error of the dispatch. Attributes left over count only if
the handler in the middle ran. -/
theorem dispatch_iff (r : Registry) (strict : Bool) (tag : Tag) (cursor : Cursor)
    (reply : Reply (Replacement × Tag)) :
    r.dispatch strict tag cursor = reply ↔
      ∃ visits outcome, r.Route cursor Station.all .null tag visits outcome ∧
        (visits.map Visit.station).Sublist Station.all ∧
        reply.notes = notesOf visits cursor ∧
        match outcome with
        | .error e => reply.result = .error e
        | .ok (value, left) =>
          Verdict (.middle ∈ visits.map Visit.station ∧ strict = true) left value reply.result := by
  have hmiddle (visits : List Visit) :
      .middle ∈ visits.map Visit.station ↔ (visits.any fun v => v.station == .middle) = true := by
    simp only [List.mem_map, List.any_eq_true, beq_iff_eq]
  constructor
  · rintro rfl
    obtain ⟨visits, outcome, h⟩ := exists_route r cursor Station.all .null tag
    refine ⟨visits, outcome, h, h.ordered, by rw [h.dispatch_eq strict], ?_⟩
    rw [h.dispatch_eq strict]
    cases outcome with
    | error e => rfl
    | ok x =>
        dsimp only
        rw [hmiddle]
        exact verdict_conclude strict _ x.1 x.2
  · rintro ⟨visits, outcome, h, -, hnotes, hresult⟩
    obtain ⟨notes, result⟩ := reply
    obtain rfl : notes = notesOf visits cursor := hnotes
    rw [h.dispatch_eq strict]
    cases outcome with
    | error e =>
        obtain rfl : result = .error e := hresult
        rfl
    | ok x =>
        dsimp only at hresult
        rw [hmiddle] at hresult
        exact congrArg (Reply.mk _) hresult.conclude_result

end Registry

end Inlay
