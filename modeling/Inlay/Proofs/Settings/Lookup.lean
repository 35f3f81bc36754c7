import Inlay.Proofs.Files.Storage
import Inlay.Proofs.Number.Nearest
import Inlay.Proofs.Settings.Markers
import Inlay.Proofs.Source.Keys

set_option autoImplicit false

/-! # Handlers of configured commands

Two commands are there from the start, then the configured ones are put in as aliases, and the
constants last, each in place of what stood under its key. So a key leads to its constant if it has
one; else its alias leads to a constant once more, or to a built-in handler, but never to another
alias (`resolve_registry`). Nothing else that is configured plays a part. The handler of a constant
answers with the value that the constant stands for, whatever it is given (`Constant.Means`). The
keys are taken to be distinct, as those of settings that are loaded are (`load_distinct`).
-/

namespace Inlay

/-! ## Entries -/

namespace Registry

theorem find?_insert (r : Registry) (key : String) (e : CommandEntry) (key' : String) :
    (r.insert key e).find? key' = if key' = key then some e else r.find? key' := by
  unfold find? insert
  rw [lookup_replaced]
  simp only [beq_iff_eq]

/-- A setting puts an alias under its key, unless the key is that of a marker. -/
theorem find?_configure (r : Registry) (key value : String) {key' : String}
    (hm : isMarkerKey key' = false) :
    (r.configure key value).find? key' =
      if key' = key then some (.alias value) else r.find? key' := by
  have hne : key' ≠ Key.opening ∧ key' ≠ Key.closing := by
    simpa [isMarkerKey] using hm
  unfold configure
  dsimp only
  split
  · rename_i ho
    obtain rfl : key = Key.opening := beq_iff_eq.mp ho
    rw [if_neg hne.1]
    rfl
  · split
    · rename_i hc
      obtain rfl : key = Key.closing := beq_iff_eq.mp hc
      rw [if_neg hne.2]
      rfl
    · exact find?_insert r key _ key'

/-- Whether no entry is a handler. -/
def Aliased (r : Registry) : Prop := ∀ key h, r.find? key ≠ some (.handler h)

theorem Aliased.insert {r : Registry} (hr : r.Aliased) (key target : String) :
    (r.insert key (.alias target)).Aliased := by
  intro key' h
  rw [find?_insert]
  split
  · nofun
  · exact hr key' h

theorem Aliased.configure {r : Registry} (hr : r.Aliased) (key value : String) :
    (r.configure key value).Aliased := by
  unfold Registry.configure
  dsimp only
  split
  · exact hr
  · split
    · exact hr
    · exact hr.insert key value

theorem Aliased.foldl_configure {r : Registry} (hr : r.Aliased)
    (commands : List (String × String)) :
    (commands.foldl (fun r c => r.configure c.1 c.2) r).Aliased := by
  induction commands generalizing r with
  | nil => exact hr
  | cons c commands ih => exact ih (hr.configure c.1 c.2)

/-- Items are put in one after another: those with distinct keys are all found, and they hide what
was there before. -/
theorem find?_foldl {α : Type} {f : Registry → String × α → Registry} (entry : α → CommandEntry)
    {key : String} (hf : ∀ r item, (f r item).find? key =
      if key = item.1 then some (entry item.2) else r.find? key) {items : List (String × α)}
    (hd : (items.map Prod.fst).Nodup) (r : Registry) :
    (items.foldl f r).find? key = ((items.lookup key).map entry).or (r.find? key) := by
  induction items generalizing r with
  | nil => rfl
  | cons item items ih =>
      obtain ⟨key', a⟩ := item
      rw [List.map_cons, List.nodup_cons] at hd
      rw [List.foldl_cons, ih hd.2, hf, List.lookup_cons]
      by_cases hk : key = key'
      · have habsent : items.lookup key = none := by
          rw [List.lookup_eq_none_iff]
          intro p hp
          have hne : key ≠ p.1 := by
            rintro rfl
            exact hd.1 (hk ▸ List.mem_map.mpr ⟨p, hp, rfl⟩)
          simpa using hne
        rw [habsent, if_pos hk, beq_iff_eq.mpr hk]
        rfl
      · rw [if_neg hk, beq_eq_false_iff_ne.mpr hk]

/-! ## What a key leads to -/

section Resolve

variable {r : Registry} {key target : String} {handler : Handler}

theorem resolve_of_absent (h : r.find? key = none) : r.resolve key = none := by
  unfold resolve
  rw [h]

theorem resolve_of_handler (h : r.find? key = some (.handler handler)) :
    r.resolve key = some handler := by
  unfold resolve
  rw [h]

theorem resolve_through_alias (h : r.find? key = some (.alias target))
    (ht : r.find? target = some (.handler handler)) : r.resolve key = some handler := by
  unfold resolve
  rw [h]
  dsimp only
  rw [ht]

/-- An alias of anything but a handler, another alias too, leads to a built-in handler. -/
theorem resolve_builtin (h : r.find? key = some (.alias target))
    (ht : ∀ handler, r.find? target ≠ some (.handler handler)) :
    r.resolve key = Builtin.find? target := by
  unfold resolve
  rw [h]
  dsimp only
  split
  · rename_i handler hfind
    exact absurd hfind (ht handler)
  · rfl

end Resolve

end Registry

/-! ## Constants -/

namespace Constant

/-- Whether a value is what a constant stands for. -/
inductive Means : Constant → Value → Prop where
  | bool (b : Bool) : Means (.bool b) (.bool b)
  /-- An integer is the nearest number, with its sign. -/
  | integer {i : Int} {n : Binary64} (h : n.IsNearest i) (hs : n.isNegative = true ↔ i < 0) :
    Means (.integer i) (.number n)
  | float (x : Binary64) : Means (.float x) (.number x)
  | text (s : String) : Means (.text s) (.text s)

theorem means_value (c : Constant) : c.Means c.value := by
  cases c with
  | bool b => exact .bool b
  | integer i =>
      obtain ⟨hnearest, hsign⟩ := Binary64.ofInt_nearest i
      exact .integer hnearest hsign
  | float x => exact .float x
  | text s => exact .text s

theorem handler_consumes (c : Constant) : c.handler.Consumes := by
  intro value value' tag left cursor hr
  cases hr
  exact .refl tag

end Constant

/-! ## Commands of settings -/

namespace Settings

/-- The handler of the constant that a key gives. -/
def constant? (s : Settings) (key : String) : Option Handler :=
  (s.constants.lookup key).map Constant.handler

/-- What a key is an alias of. Without configuration two commands are aliases of themselves. -/
def target? (s : Settings) (key : String) : Option String :=
  (s.commands.lookup key).or (if key = "include" ∨ key = "echo" then some key else none)

/-- The registry of settings before the constants are put in. -/
def aliases (s : Settings) : Registry :=
  s.commands.foldl (fun r c => r.configure c.1 c.2)
    ((Registry.standard.insert "include" (.alias "include")).insert "echo" (.alias "echo"))

theorem find?_aliases {s : Settings} (hd : s.Distinct) {key : String}
    (hm : isMarkerKey key = false) :
    s.aliases.find? key = (s.target? key).map .alias := by
  have hstandard : ((Registry.standard.insert "include" (.alias "include")).insert "echo"
      (.alias "echo")).find? key =
        (if key = "include" ∨ key = "echo" then some key else none).map CommandEntry.alias := by
    rw [Registry.find?_insert, Registry.find?_insert]
    by_cases he : key = "echo"
    · simp [he]
    · by_cases hi : key = "include"
      · simp [hi]
      · rw [if_neg he, if_neg hi, if_neg (not_or.mpr ⟨hi, he⟩)]
        rfl
  have hconfigure (r : Registry) (c : String × String) : (r.configure c.1 c.2).find? key =
      if key = c.1 then some (.alias c.2) else r.find? key := r.find?_configure c.1 c.2 hm
  unfold aliases target?
  rw [Registry.find?_foldl .alias hconfigure hd.commands, hstandard]
  cases s.commands.lookup key with
  | some value => rfl
  | none => rfl

theorem aliased (s : Settings) : s.aliases.Aliased := by
  refine Registry.Aliased.foldl_configure ?_ s.commands
  refine Registry.Aliased.insert (Registry.Aliased.insert ?_ _ _) _ _
  intro key h
  nofun

theorem find?_registry {s : Settings} (hd : s.Distinct) (key : String) :
    s.registry.find? key = ((s.constant? key).map .handler).or (s.aliases.find? key) := by
  have hinsert (r : Registry) (c : String × Constant) :
      (r.insert c.1 (.handler c.2.handler)).find? key =
        if key = c.1 then some (.handler c.2.handler) else r.find? key :=
    r.find?_insert c.1 _ key
  unfold registry constant?
  rw [Registry.find?_foldl (fun c => .handler c.handler) hinsert hd.constants, Option.map_map]
  rfl

/-- An alias leads to a constant or else to a built-in handler, whatever command it names. -/
theorem resolve_alias {s : Settings} (hd : s.Distinct) {key target : String}
    (h : s.registry.find? key = some (.alias target)) :
    s.registry.resolve key = (s.constant? target).or (Builtin.find? target) := by
  have hfind := find?_registry hd target
  cases hc : s.constant? target with
  | some handler =>
      rw [hc] at hfind
      exact Registry.resolve_through_alias h hfind
  | none =>
      have halias (handler : Handler) : s.registry.find? target ≠ some (.handler handler) := by
        rw [hfind, hc]
        exact s.aliased target handler
      exact Registry.resolve_builtin h halias

/-- Of a configured registry no handler does more to a tag than to consume its attributes, so a tag
keeps its name until it is looked up. -/
theorem registry_keepsName {s : Settings} (hd : s.Distinct) (tag : Tag) (cursor : Cursor) :
    s.registry.KeepsName tag cursor := by
  refine Registry.keepsName_of_consumes (fun key h hk => ?_) tag cursor
  rw [find?_registry hd key] at hk
  rcases Option.or_eq_some_iff.mp hk with hconstant | ⟨-, halias⟩
  · obtain ⟨handler, hc, heq⟩ := Option.map_eq_some_iff.mp hconstant
    cases heq
    obtain ⟨c, -, rfl⟩ := Option.map_eq_some_iff.mp hc
    exact @Constant.handler_consumes c
  · exact absurd halias (s.aliased key h)

theorem resolve_eq {s : Settings} (hd : s.Distinct) {key : String} (hm : isMarkerKey key = false) :
    s.registry.resolve key = (s.constant? key).or ((s.target? key).bind fun target =>
      (s.constant? target).or (Builtin.find? target)) := by
  have hfind := find?_registry hd key
  rw [find?_aliases hd hm] at hfind
  cases hc : s.constant? key with
  | some handler =>
      rw [hc] at hfind
      exact Registry.resolve_of_handler hfind
  | none =>
      rw [hc] at hfind
      cases ht : s.target? key with
      | none =>
          rw [ht] at hfind
          exact Registry.resolve_of_absent hfind
      | some target =>
          rw [ht] at hfind
          exact resolve_alias hd hfind

theorem constant?_eq_some {s : Settings} {key : String} {c : Constant}
    (h : s.constants.lookup key = some c) : s.constant? key = some c.handler := by
  unfold constant?
  rw [h]
  rfl

theorem constant?_eq_none {s : Settings} {key : String} (h : s.constants.lookup key = none) :
    s.constant? key = none := by
  unfold constant?
  rw [h]
  rfl

/-- A key that has a constant, or that is an alias of one, leads to its handler. -/
theorem resolve_constant {s : Settings} (hd : s.Distinct) {key : String}
    (hm : isMarkerKey key = false) {c : Constant}
    (hc : (s.constants.lookup key).or ((s.target? key).bind fun target =>
      s.constants.lookup target) = some c) : s.registry.resolve key = some c.handler := by
  rw [resolve_eq hd hm]
  rcases Option.or_eq_some_iff.mp hc with hkey | ⟨hnone, htarget⟩
  · rw [constant?_eq_some hkey]
    rfl
  · obtain ⟨target, ht, hlookup⟩ := Option.bind_eq_some_iff.mp htarget
    rw [constant?_eq_none hnone, ht]
    show (s.constant? target).or _ = some c.handler
    rw [constant?_eq_some hlookup]
    rfl

/-- **A key leads to its constant, or else through its alias to a constant or a built-in handler.**
An alias that names no constant leads to the built-in handler of that name if there is one, and
nowhere else, whatever the settings say of the command it names. Settings that agree on the three
entries that are looked at lead to the same handler. Where a key leads to a constant, the handler
answers with the value of that constant, leaves no note, and leaves the tag as it is, whatever it is
given. -/
theorem resolve_registry {s : Settings} (hd : s.Distinct) {key : String}
    (hm : isMarkerKey key = false) :
    s.registry.resolve key = (s.constant? key).or ((s.target? key).bind fun target =>
        (s.constant? target).or (Builtin.find? target)) ∧
      (∀ target, s.target? key = some target → s.constant? key = none →
        s.constant? target = none → s.registry.resolve key = Builtin.find? target) ∧
      (∀ s' : Settings, s'.Distinct → s'.constants.lookup key = s.constants.lookup key →
        s'.commands.lookup key = s.commands.lookup key →
          (∀ target, s.target? key = some target →
            s'.constants.lookup target = s.constants.lookup target) →
              s'.registry.resolve key = s.registry.resolve key) ∧
      ∀ c, (s.constants.lookup key).or ((s.target? key).bind fun target =>
          s.constants.lookup target) = some c →
        ∃ handler, s.registry.resolve key = some handler ∧ ∀ value tag cursor, ∃ given,
          c.Means given ∧ handler value tag cursor = .pure (given, tag) := by
  refine ⟨resolve_eq hd hm, ?_, ?_, ?_⟩
  · intro target ht hk hc
    rw [resolve_eq hd hm, hk, ht]
    show (s.constant? target).or (Builtin.find? target) = Builtin.find? target
    rw [hc]
    rfl
  · intro s' hd' hconstant hcommand htarget
    have hkey : s'.constant? key = s.constant? key := by
      unfold constant?
      rw [hconstant]
    have halias : s'.target? key = s.target? key := by
      unfold target?
      rw [hcommand]
    rw [resolve_eq hd hm, resolve_eq hd' hm, hkey, halias]
    cases ht : s.target? key with
    | none => rfl
    | some target =>
        have hfixed : s'.constant? target = s.constant? target := by
          unfold constant?
          rw [htarget target ht]
        show (s.constant? key).or ((s'.constant? target).or _) = _
        rw [hfixed]
        rfl
  · intro c hc
    refine ⟨c.handler, resolve_constant hd hm hc, fun value tag cursor => ?_⟩
    exact ⟨c.value, c.means_value, rfl⟩

/-- Settings in which three aliases go round in a circle, and one leads to a constant. -/
def circular : Settings where
  commands := [("a", "b"), ("b", "drop"), ("drop", "a"), ("v", "version")]
  constants := [("count", .integer (-3)), ("version", .text "1.2")]

/-- In the circle only the alias of a built-in name leads to a handler. -/
theorem circular_resolves :
    circular.registry.resolve "a" = none ∧
      circular.registry.resolve "b" = some Builtin.dropTag ∧
      circular.registry.resolve "drop" = none ∧
      circular.registry.resolve "include" = some Builtin.includeFile ∧
      (∃ handler, circular.registry.resolve "v" = some handler ∧ ∀ value tag cursor,
        handler value tag cursor = .pure (.text "1.2", tag)) ∧
      ∃ handler, circular.registry.resolve "count" = some handler ∧ ∀ value tag cursor, ∃ n,
        n.IsNearest (-3) ∧ n.isNegative = true ∧
          handler value tag cursor = .pure (.number n, tag) := by
  have hd : circular.Distinct := ⟨by decide +kernel, by decide +kernel⟩
  have hkeys : ∀ key ∈ ["a", "b", "drop", "include", "v", "count"], isMarkerKey key = false := by
    decide +kernel
  refine ⟨?_, ?_, ?_, ?_, ?_, ?_⟩
  · exact (resolve_registry hd (hkeys "a" (by simp))).1
  · exact (resolve_registry hd (hkeys "b" (by simp))).1
  · exact (resolve_registry hd (hkeys "drop" (by simp))).1
  · exact (resolve_registry hd (hkeys "include" (by simp))).1
  · obtain ⟨-, -, -, hconstant⟩ := resolve_registry hd (hkeys "v" (by simp))
    obtain ⟨handler, hresolve, hanswer⟩ := hconstant (.text "1.2") rfl
    refine ⟨handler, hresolve, fun value tag cursor => ?_⟩
    obtain ⟨given, hmeans, hreply⟩ := hanswer value tag cursor
    cases hmeans
    exact hreply
  · obtain ⟨-, -, -, hconstant⟩ := resolve_registry hd (hkeys "count" (by simp))
    obtain ⟨handler, hresolve, hanswer⟩ := hconstant (.integer (-3)) rfl
    refine ⟨handler, hresolve, fun value tag cursor => ?_⟩
    obtain ⟨given, hmeans, hreply⟩ := hanswer value tag cursor
    cases hmeans with
    | integer hnearest hsign =>
        exact ⟨_, by exact_mod_cast hnearest, hsign.mpr (by decide), hreply⟩

end Settings

end Inlay
