import Inlay.Proofs.Command.Chain
import Inlay.Proofs.Source.Outline
import Inlay.Proofs.Source.Template

set_option autoImplicit false

/-! # The keys of tags

The handlers of a registry are found by strings, and three of these are reserved for the handlers
that stand before, after and in place of those of a command. A tag is looked up under a string that
the author of the source has chosen, so this may be none of the three: else a page could run the
handler after all twice. The search for the end of a tag is what keeps them apart. Outside of quotes
a body holds no bracket (`splitTag_next`), and if the opening marker holds no quote, what follows it
stands outside of quotes. So a command begins with no bracket, while the key of a tag without a
command begins with `<` (`Markers.OwnKey`).

A tag is looked up as the handler before all has left it (`Registry.LooksUp`). If that handler
leaves the name and the command, as all do that only consume attributes, the key is that of the
source, and what stands under a reserved key plays no part in the lookup unless an alias of the
registry names it (`looksUp_ownKey`). A handler that puts another tag in the place of its own, and
an alias, lead to the reserved keys all the same (`reserved_reached`).
-/

namespace Inlay

/-! ## Outside of quotes -/

/-- The first character of a body is no bracket, and the search goes on behind it. -/
theorem splitTag_cons {quotes : Bool} {text body rest : List Char} {c : Char}
    (h : splitTag quotes none text = some (c :: body, rest)) : (c ≠ '<' ∧ c ≠ '>') ∧
      ∃ text', splitTag quotes (if quotes && isQuote c then some c else none) text' =
        some (body, rest) := by
  cases text with
  | nil => cases h
  | cons c' text =>
      rw [splitTag] at h
      split at h
      · cases h
      · rename_i hg
        split at h
        · cases h
        · rename_i hl
          obtain ⟨⟨b, r⟩, hs, hb⟩ := Option.map_eq_some_iff.mp h
          cases hb
          exact ⟨⟨by simpa using hl, by simpa using hg⟩, text, hs⟩

/-- No bracket follows the part of a body that holds no quote. -/
theorem splitTag_next {quotes : Bool} {text first more rest : List Char} {c : Char}
    (hq : first.any isQuote = false)
    (h : splitTag quotes none text = some (first ++ c :: more, rest)) : c ≠ '<' ∧ c ≠ '>' := by
  induction first generalizing text with
  | nil => exact (splitTag_cons h).1
  | cons q first ih =>
      rw [List.any_cons, Bool.or_eq_false_iff] at hq
      obtain ⟨-, text', h⟩ := splitTag_cons h
      rw [hq.1, Bool.and_false, if_neg Bool.false_ne_true] at h
      exact ih hq.2 h

/-! ## The key of a tag -/

/-- How the name of a tag that was recognised lies in its body. -/
theorem Markers.name_of_recognise {m : Markers} {position : Position} {text rest : List Char}
    {tag : Tag} (h : m.recognise position text = .ok (.command tag rest)) :
    ∃ body name, splitTag (m.begins text) none text = some (body, rest) ∧ name <+: body ∧
      m.command? name = some tag.command := by
  obtain ⟨body, inner, command, attrs, hs, hu, -, hc, -, rfl⟩ := recognise_eq_command.mp h
  refine ⟨body, nameOf inner, hs, ?_, hc⟩
  exact (List.takeWhile_prefix _).trans (unclosed?_prefix_body hu)

/-- Whether a tag of a source may be looked up under a key when these are the markers. -/
structure Markers.OwnKey (m : Markers) (key : String) : Prop where
  /-- It is no key like those that are reserved, all of which begin with `>`. -/
  unreserved : key.toList.head? ≠ some '>'
  /-- It is like the key of a tag without a command just if there is no opening marker. -/
  plain : key.toList.head? = some '<' ↔ m.opening = none

namespace Markers.OwnKey

variable {m : Markers} {key : String}

theorem not_reserved (h : m.OwnKey key) : key ∉ [Key.before, Key.other, Key.after] := by
  intro hk
  apply h.unreserved
  simp only [List.mem_cons, List.not_mem_nil, or_false] at hk
  rcases hk with rfl | rfl | rfl <;> rfl

theorem ne_plain (h : m.OwnKey key) (hm : m.opening ≠ none) (name : String) :
    key ≠ "<" ++ name := by
  rintro rfl
  exact hm (h.plain.mp (by simp))

end Markers.OwnKey

/-- A tag that was recognised has a key of its own, if no quote is in the opening marker. -/
theorem Markers.ownKey_of_recognise {m : Markers}
    (ho : ∀ opening ∈ m.opening, opening.toList.any isQuote = false) {position : Position}
    {text rest : List Char} {tag : Tag} (h : m.recognise position text = .ok (.command tag rest)) :
    m.OwnKey (Registry.commandKey tag) := by
  obtain ⟨body, name, hs, hp, hc⟩ := name_of_recognise h
  unfold command? at hc
  unfold Registry.commandKey
  cases hm : m.opening with
  | none =>
      rw [hm] at hc
      obtain hc : none = tag.command := Option.some.inj hc
      rw [← hc]
      exact ⟨by simp, by simp [hm]⟩
  | some opening =>
      rw [hm] at hc
      obtain ⟨command, hw, hc⟩ := Option.map_eq_some_iff.mp hc
      rw [← hc]
      dsimp only
      -- the body begins with the marker, which the command follows
      obtain ⟨more, hb⟩ : opening.toList ++ command <+: body := by
        unfold withoutHead? at hw
        split at hw
        · rename_i hpre
          obtain ⟨command', rfl⟩ := List.isPrefixOf_iff_prefix.mp hpre
          cases hw
          rwa [List.drop_left]
        · cases hw
      cases command with
      | nil => exact ⟨by simp, by simp [hm]⟩
      | cons c command =>
          rw [← hb, List.append_assoc] at hs
          obtain ⟨hl, hg⟩ := splitTag_next (ho opening hm) hs
          exact ⟨by simpa using hg, by simpa [hm] using hl⟩

/-- A quote in the opening marker would let a command begin with a bracket. -/
example : (⟨some "\"", none⟩ : Markers).recognise .start "\">x\">".toList =
    .ok (.command ⟨"\">x\"", some ">x\"", [], .start, "<\">x\">"⟩ []) := by
  cbv

/-- Whether a key is kept from the tags of a source: it is reserved, or it is like the keys of tags
without a command when there is an opening marker. -/
def Markers.Withheld (m : Markers) (key : String) : Prop :=
  key ∈ [Key.before, Key.other, Key.after] ∨ m.opening ≠ none ∧ ∃ name, key = "<" ++ name

theorem Markers.OwnKey.ne_withheld {m : Markers} {key slot : String} (h : m.OwnKey key)
    (hs : m.Withheld slot) : key ≠ slot := by
  rintro rfl
  rcases hs with hs | ⟨hm, name, hs⟩
  · exact h.not_reserved hs
  · exact h.ne_plain hm name hs

/-! ## The key that is looked up -/

namespace Registry

variable {r : Registry} {tag : Tag} {cursor : Cursor}

/-- Whether the own handler of a tag is looked up under a key: that of the tag as the handler before
all, if there is one, has left it. -/
def LooksUp (r : Registry) (tag : Tag) (cursor : Cursor) (key : String) : Prop :=
  ∃ value left ran, (r.run Key.before .null tag cursor).result = .ok (value, left, ran) ∧
    key = commandKey left

/-- Whether the handler before all, if there is one, leaves a tag its name and its command. -/
def KeepsName (r : Registry) (tag : Tag) (cursor : Cursor) : Prop :=
  ∀ h, r.resolve Key.before = some h → ∀ value left,
    (h .null tag cursor).result = .ok (value, left) →
      left.name = tag.name ∧ left.command = tag.command

/-- Handlers that only consume leave a tag its name. -/
theorem keepsName_of_consumes (hr : ∀ key h, r.find? key = some (.handler h) → h.Consumes)
    (tag : Tag) (cursor : Cursor) : r.KeepsName tag cursor := by
  intro h hk value left hh
  obtain ⟨attrs, -, rfl⟩ := resolve_consumes hr hk hh
  exact ⟨rfl, rfl⟩

/-- So do the handlers that are described by data, and the built-in ones that aliases lead to. -/
theorem keepsName_of_recipes
    (hr : ∀ key h, r.find? key = some (.handler h) → ∃ recipe : Recipe, h = recipe.handler)
    (tag : Tag) (cursor : Cursor) : r.KeepsName tag cursor := by
  refine keepsName_of_consumes (fun key h hk => ?_) tag cursor
  obtain ⟨recipe, rfl⟩ := hr key h hk
  exact @Recipe.handler_consumes recipe

theorem LooksUp.key_eq {key : String} (h : r.LooksUp tag cursor key)
    (hb : r.KeepsName tag cursor) : key = commandKey tag := by
  obtain ⟨value, left, ran, hrun, rfl⟩ := h
  cases hk : r.resolve Key.before with
  | none =>
      rw [run_of_none hk] at hrun
      cases hrun
      rfl
  | some handler =>
      rw [run_of_some hk] at hrun
      obtain ⟨x, hx, hpure⟩ := Reply.bind_eq_ok hrun
      cases hpure
      obtain ⟨hname, hcommand⟩ := hb handler hk _ _ hx
      unfold commandKey
      rw [hname, hcommand]

theorem resolve_of_middle {handler : Handler}
    (h : r.resolve (r.keyAt .middle tag) = some handler) :
    r.resolve (commandKey tag) = some handler ∨
      r.resolve (commandKey tag) = none ∧ r.resolve Key.other = some handler := by
  unfold keyAt at h
  dsimp only at h
  split at h
  · exact .inl h
  · rename_i hnone
    exact .inr ⟨Option.not_isSome_iff_eq_none.mp hnone, h⟩

section Routes

variable {value : Value} {visits : List Visit} {outcome : Except TagError (Value × Tag)}
  {v : Visit}

/-- No visit to the middle is left when the route goes on to the last station. -/
theorem Route.not_mem_after (h : r.Route cursor [.after] value tag visits outcome)
    (hm : v.station = .middle) : v ∉ visits := by
  intro hv
  have hstation := h.ordered.subset (List.mem_map_of_mem hv)
  rw [hm] at hstation
  cases List.mem_singleton.mp hstation

theorem Route.resolve_middle (h : r.Route cursor [.middle, .after] value tag visits outcome)
    (hv : v ∈ visits) (hm : v.station = .middle) :
    r.resolve (r.keyAt .middle tag) = some v.handler := by
  cases h with
  | missing _ h => exact absurd hv (h.not_mem_after hm)
  | passed hk _ h =>
      rcases List.mem_cons.mp hv with rfl | hv
      · exact hk
      · exact absurd hv (h.not_mem_after hm)
  | failed hk _ =>
      obtain rfl := List.mem_singleton.mp hv
      exact hk

/-- The handler in the middle of a route is that of the key looked up, or else the one for other
tags. -/
theorem Route.looksUp (h : r.Route cursor Station.all .null tag visits outcome) (hv : v ∈ visits)
    (hm : v.station = .middle) : ∃ key, r.LooksUp tag cursor key ∧
      (r.resolve key = some v.handler ∨
        r.resolve key = none ∧ r.resolve Key.other = some v.handler) := by
  cases h with
  | missing hk h =>
      obtain hk : r.resolve Key.before = none := hk
      refine ⟨_, ⟨.null, tag, false, ?_, rfl⟩, resolve_of_middle (h.resolve_middle hv hm)⟩
      rw [run_of_none hk]
      rfl
  | passed hk hr h =>
      rename_i value left handler visits
      obtain hk : r.resolve Key.before = some handler := hk
      rcases List.mem_cons.mp hv with rfl | hv
      · cases hm
      · refine ⟨_, ⟨value, left, true, ?_, rfl⟩, resolve_of_middle (h.resolve_middle hv hm)⟩
        rw [run_of_some hk, Reply.bind_result hr]
        rfl
  | failed _ _ =>
      obtain rfl := List.mem_singleton.mp hv
      cases hm

/-- The handler that a tag's own key leads to runs in the middle. -/
theorem exists_visit {handler : Handler} (hb : r.resolve Key.before = none)
    (hk : r.resolve (commandKey tag) = some handler) : ∃ visits outcome,
      r.Route cursor Station.all .null tag visits outcome ∧
        ⟨.middle, handler, .null, tag⟩ ∈ visits := by
  have hmiddle : r.resolve (r.keyAt .middle tag) = some handler := by
    unfold keyAt
    dsimp only
    rw [hk, Option.isSome_some, if_pos rfl, hk]
  cases hr : (handler .null tag cursor).result with
  | error e =>
      exact ⟨_, _, .missing hb (.failed hmiddle hr), List.mem_singleton_self _⟩
  | ok x =>
      obtain ⟨visits, outcome, h⟩ := exists_route r cursor [.after] x.1 x.2
      exact ⟨_, outcome, .missing hb (.passed hmiddle hr h), List.mem_cons_self⟩

end Routes

/-- What stands under one key plays no part in the lookup of another one whose alias does not name
it. -/
theorem resolve_congr {r' : Registry} {key slot : String} (hne : key ≠ slot)
    (halias : r.find? key ≠ some (.alias slot)) (h : ∀ k ≠ slot, r'.find? k = r.find? k) :
    r'.resolve key = r.resolve key := by
  unfold resolve
  rw [h key hne]
  cases hk : r.find? key with
  | none => rfl
  | some entry =>
      obtain handler | target := entry
      · rfl
      · have htarget : target ≠ slot := by
          rintro rfl
          exact halias hk
        dsimp only
        rw [h target htarget]

end Registry

namespace Document

/-- **No source chooses a reserved key.** If no quote is in the opening marker, each tag that a scan
hands over has a key of its own, and is looked up under it if the handler before all leaves its name
and its command. This is none of the keys of the handlers before all, for other tags and after all,
and under an opening marker it is no key of a tag without a command. What stands under these plays
no part in the lookup, unless the key that is looked up is an alias of one of them. The reply that
the scan had is that of the tag's route, and the handler that ran in the middle of it is the one
that is found by the lookup, or else the one for other tags. -/
theorem looksUp_ownKey {d : Document}
    (ho : ∀ opening ∈ d.registry.markers.opening, opening.toList.any isQuote = false) {x : Dispatch}
    (hx : x ∈ d.scan.1.dispatches) (hb : d.registry.KeepsName x.tag x.cursor) :
    (∀ key, d.registry.LooksUp x.tag x.cursor key → d.registry.markers.OwnKey key ∧
      ∀ slot, d.registry.markers.Withheld slot → key ≠ slot ∧
        (d.registry.find? key ≠ some (.alias slot) → ∀ r : Registry,
          (∀ k ≠ slot, r.find? k = d.registry.find? k) →
            r.resolve key = d.registry.resolve key)) ∧
    ∀ visits outcome, d.registry.Route x.cursor Station.all .null x.tag visits outcome →
      x.reply = ⟨notesOf visits x.cursor, outcome.bind fun y => (Registry.conclude d.options.strict
        (y.1, y.2, visits.any fun v => v.station == .middle)).result⟩ ∧
      ∀ v ∈ visits, v.station = .middle → ∃ key, d.registry.LooksUp x.tag x.cursor key ∧
        (d.registry.resolve key = some v.handler ∨
          d.registry.resolve key = none ∧ d.registry.resolve Key.other = some v.handler) := by
  obtain ⟨n, hstretch, hhanded⟩ := d.scan_runsAlong.exists_mem hx
  refine ⟨fun key hk => ?_, fun visits outcome h => ⟨?_, fun v hv hm => h.looksUp hv hm⟩⟩
  · obtain rfl := hk.key_eq hb
    obtain ⟨text, rest, -, h⟩ := found_of_mem_outline hstretch
    have hown : d.registry.markers.OwnKey (Registry.commandKey x.tag) :=
      Markers.ownKey_of_recognise ho h
    refine ⟨hown, fun slot hs => ⟨hown.ne_withheld hs, fun halias r hr => ?_⟩⟩
    exact Registry.resolve_congr (hown.ne_withheld hs) halias hr
  · have hreply : x.reply = d.registry.dispatch d.options.strict x.tag x.cursor := by
      rw [hhanded]
      rfl
    rw [hreply]
    exact h.dispatch_eq d.options.strict

/-- The tag that is all of a source is handed over. -/
theorem handed_of_sole {d : Document} {tag : Tag} {body : List Char}
    (hs : d.source.toList = '<' :: body)
    (h : d.registry.markers.recognise .start body = .ok (.command tag [])) :
    d.handed tag 0 ∈ d.scan.1.dispatches := by
  have ho : d.registry.markers.outline d.source = [.command tag] := by
    rw [Markers.outline, hs]
    exact (Markers.outlineFrom_command h []).trans
      (congrArg (_ :: ·) (Markers.outlineFrom_nil _ _ _))
  rw [scan_eq_follow, ho]
  cases hr : (d.handed tag 0).reply.result with
  | ok a =>
      rw [follow_of_ok hr]
      exact List.mem_singleton_self _
  | error e =>
      rw [follow_of_error hr]
      exact List.mem_singleton_self _

/-- A document that tries to run the handler after all. The one before all takes an attribute. -/
def reaching : Document where
  source := "<!--#\">after\"-->"
  phase := .hasSourceText
  registry :=
    let before : Recipe := { consume := ["a"] }
    let after : Recipe := { outcome := .text [.literal "x"] }
    (Registry.standard.insert Key.after (.handler after.handler)).insert Key.before
      (.handler before.handler)

theorem reaching_recipes (key : String) (h : Handler)
    (hk : reaching.registry.find? key = some (.handler h)) :
    ∃ recipe : Recipe, h = recipe.handler := by
  obtain ⟨before, after, he, -⟩ := List.lookup_eq_some_iff.mp hk
  have hmem : (key, .handler h) ∈ reaching.registry.entries := by
    rw [he]
    exact List.mem_append_right _ List.mem_cons_self
  rcases List.mem_cons.mp hmem with heq | hmem
  · cases heq
    exact ⟨_, rfl⟩
  · cases List.mem_singleton.mp hmem
    exact ⟨_, rfl⟩

/-- The tag is looked up under a key with the quotes that hide the bracket, and finds nothing,
whatever stands under that of the handler after all. -/
theorem reaching_looksUp : ∃ x ∈ reaching.scan.1.dispatches,
    reaching.registry.LooksUp x.tag x.cursor "\">after\"" ∧
      reaching.registry.markers.OwnKey "\">after\"" ∧
      ∀ r : Registry, (∀ k ≠ Key.after, r.find? k = reaching.registry.find? k) →
        r.resolve "\">after\"" = none := by
  let tag : Tag := ⟨"!--#\">after\"", some "\">after\"", [], .start, "<!--#\">after\"-->"⟩
  have hr : reaching.registry.markers.recognise .start "!--#\">after\"-->".toList =
      .ok (.command tag []) :=
    Markers.recognise_eq_command.mpr ⟨"!--#\">after\"--".toList, "!--#\">after\"".toList, _, [],
      rfl, rfl, by decide, rfl, attributesFrom_nil [], rfl⟩
  have hx : reaching.handed tag 0 ∈ reaching.scan.1.dispatches := handed_of_sole rfl hr
  have hb := Registry.keepsName_of_recipes reaching_recipes tag (reaching.handed tag 0).cursor
  have hk : reaching.registry.LooksUp tag (reaching.handed tag 0).cursor "\">after\"" :=
    ⟨_, _, _, rfl, rfl⟩
  obtain ⟨hown, hslots⟩ := (looksUp_ownKey (by decide) hx hb).1 _ hk
  refine ⟨reaching.handed tag 0, hx, hk, hown, fun r h => ?_⟩
  exact (hslots Key.after (.inl (by simp))).2 nofun r h

/-- A document of one command tag. -/
def plainTag (r : Registry) : Document where
  source := "<!--#x-->"
  phase := .hasSourceText
  registry := r

/-- The tag of the document, when the markers are the usual ones. -/
def theTag : Tag := ⟨"!--#x", some "x", [], .start, "<!--#x-->"⟩

theorem plainTag_handed {r : Registry} (hm : r.markers = Registry.standard.markers) :
    (plainTag r).handed theTag 0 ∈ (plainTag r).scan.1.dispatches := by
  have hr : Registry.standard.markers.recognise .start "!--#x-->".toList =
      .ok (.command theTag []) :=
    Markers.recognise_eq_command.mpr ⟨"!--#x--".toList, "!--#x".toList, _, [],
      rfl, rfl, by decide, rfl, attributesFrom_nil [], rfl⟩
  have hs : "<!--#x-->".toList = '<' :: "!--#x-->".toList := by decide
  rw [← hm] at hr
  exact handed_of_sole hs hr

/-- The handler before all puts another tag in the place of the one that it was given. -/
def swapping : Registry :=
  Registry.standard.insert Key.before (.handler fun value tag _ =>
    .pure (value, { tag with command := some Key.after }))

/-- A command is an alias of a key that is kept from tags, with a handler under it. -/
def aliasing (slot : String) : Registry :=
  (Registry.standard.insert slot (.handler Builtin.passOn)).insert "x" (.alias slot)

/-- **A swapped tag and an alias lead to the keys that are kept from tags.** No quote is in the
markers. The handler before all may bring it about that a tag is looked up under the key of the
handler after all; and an alias of that key, or of one for tags without a command, runs the handler
that stands under it as that of a command tag. -/
theorem reserved_reached :
    (∀ marker ∈ ["!--#", "--"], marker.toList.any isQuote = false) ∧
    (swapping.markers = ⟨some "!--#", some "--"⟩ ∧
      ∃ x ∈ (plainTag swapping).scan.1.dispatches, swapping.LooksUp x.tag x.cursor Key.after) ∧
    ∀ slot ∈ [Key.after, "<br"], (aliasing slot).markers = ⟨some "!--#", some "--"⟩ ∧
      ∃ x ∈ (plainTag (aliasing slot)).scan.1.dispatches, ∃ visits outcome,
        (aliasing slot).Route x.cursor Station.all .null x.tag visits outcome ∧
        ∃ v ∈ visits, v.station = .middle ∧
          (aliasing slot).resolve (Registry.commandKey v.tag) = some v.handler ∧
          (aliasing slot).find? slot = some (.handler v.handler) := by
  refine ⟨by decide, ⟨rfl, _, plainTag_handed rfl, _, _, _, rfl, rfl⟩, fun slot hs => ⟨rfl, ?_⟩⟩
  obtain ⟨hb, hx, hslot⟩ : (aliasing slot).resolve Key.before = none ∧
      (aliasing slot).resolve (Registry.commandKey theTag) = some Builtin.passOn ∧
      (aliasing slot).find? slot = some (.handler Builtin.passOn) := by
    simp only [List.mem_cons, List.not_mem_nil, or_false] at hs
    rcases hs with rfl | rfl
    · exact ⟨rfl, rfl, rfl⟩
    · exact ⟨rfl, rfl, rfl⟩
  obtain ⟨visits, outcome, h, hv⟩ := Registry.exists_visit hb hx
  exact ⟨_, plainTag_handed rfl, visits, outcome, h, _, hv, rfl, hx, hslot⟩

end Document

end Inlay
