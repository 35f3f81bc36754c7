import Inlay.Proofs.Command.Chain
import Inlay.Proofs.Source.Outline

set_option autoImplicit false

/-! # Attributes left over

An attribute that no handler consumed is most often a slip of the author, and the options say
whether it is an error. They say nothing else: the handlers of a tag run before the question is
asked, so they cannot depend on it, and a tag that is not rejected is replaced in the same way
(`dispatch_strict`). Two scans of one document, of which one counts what is left over, are therefore
the same up to the leftmost tag that a handler of its command or for other tags did not use up
(`Compares`). There the one that counts stops, and names what is left.
-/

namespace Inlay

/-! ## One tag -/

/-- The error that names the attributes nobody consumed. -/
def Tag.leftoverError (t : Tag) : TagError :=
  t.error ("leftover attributes: " ++
    ", ".intercalate (t.leftover.map fun name => "\"" ++ name ++ "\""))

theorem Tag.leftoverError?_of_ne {t : Tag} (h : t.attrs ≠ []) :
    t.leftoverError? = some t.leftoverError := by
  unfold leftoverError?
  rw [if_neg (by rwa [List.isEmpty_iff])]
  rfl

theorem Tag.Consumed.leftover {tag left : Tag} (h : tag.Consumed left) :
    left.leftover.Sublist tag.leftover := by
  obtain ⟨attrs, hs, rfl⟩ := h
  exact hs.map Prod.fst

theorem Tag.Consumed.label {tag left : Tag} (h : tag.Consumed left) : left.label = tag.label := by
  obtain ⟨attrs, -, rfl⟩ := h
  rfl

namespace Registry

variable {r : Registry} {tag left : Tag} {cursor : Cursor} {value : Value}

theorem ran_of_run {key : String} {value' : Value} {ran : Bool}
    (h : (r.run key value tag cursor).result = .ok (value', left, ran)) :
    ran = (r.resolve key).isSome := by
  unfold run at h
  split at h
  · rename_i hk
    cases h
    rw [hk]
    rfl
  · rename_i hk
    obtain ⟨⟨value₁, tag₁⟩, -, h⟩ := Reply.bind_eq_ok h
    cases h
    rw [hk]
    rfl

/-- A tag is handled if its own key or the one for other tags leads to a handler. Its own key is
that of the tag as the handler before all left it. -/
theorem handled_of_chain {handled : Bool}
    (h : (r.chain tag cursor).result = .ok (value, left, handled)) :
    ∃ value₁ first ran, (r.run Key.before .null tag cursor).result = .ok (value₁, first, ran) ∧
      (handled = true ↔ (r.resolve (commandKey first)).isSome ∨ (r.resolve Key.other).isSome) := by
  unfold chain at h
  obtain ⟨⟨value₁, first, ran₁⟩, h₁, h⟩ := Reply.bind_eq_ok h
  obtain ⟨⟨value₂, tag₂, ran₂⟩, h₂, h⟩ := Reply.bind_eq_ok h
  refine ⟨value₁, first, ran₁, h₁, ?_⟩
  rw [← ran_of_run h₂]
  cases ran₂ with
  | true =>
      obtain ⟨⟨value₄, tag₄, ran₄⟩, -, h⟩ := Reply.bind_eq_ok h
      cases h
      simp
  | false =>
      obtain ⟨⟨value₃, tag₃, ran₃⟩, h₃, h⟩ := Reply.bind_eq_ok h
      obtain ⟨⟨value₄, tag₄, ran₄⟩, -, h⟩ := Reply.bind_eq_ok h
      cases h
      simp [ran_of_run h₃]

/-- Whether the handlers of a tag leave attributes over that count: `left` is the tag as they leave
it. -/
structure LeavesOver (r : Registry) (tag : Tag) (cursor : Cursor) (left : Tag) : Prop where
  /-- A handler of the command ran, or else one for other tags. -/
  handled : ∃ value first ran,
    (r.run Key.before .null tag cursor).result = .ok (value, first, ran) ∧
      ((r.resolve (commandKey first)).isSome ∨ (r.resolve Key.other).isSome)
  /-- No handler failed, up to the one after all. -/
  chain : ∃ value handled, (r.chain tag cursor).result = .ok (value, left, handled)
  attrs : left.attrs ≠ []

theorem leavesOver_iff : r.LeavesOver tag cursor left ↔
    (∃ value, (r.chain tag cursor).result = .ok (value, left, true)) ∧ left.attrs ≠ [] := by
  constructor
  · rintro ⟨⟨value₁, first, ran, h₁, hk⟩, ⟨value, handled, hc⟩, ha⟩
    obtain ⟨value₁', first', ran', h₁', hh⟩ := handled_of_chain hc
    rw [h₁] at h₁'
    cases h₁'
    obtain rfl := hh.mpr hk
    exact ⟨⟨value, hc⟩, ha⟩
  · rintro ⟨⟨value, hc⟩, ha⟩
    obtain ⟨value₁, first, ran, h₁, hh⟩ := handled_of_chain hc
    exact ⟨⟨value₁, first, ran, h₁, hh.mp rfl⟩, ⟨value, true, hc⟩, ha⟩

/-- Attributes left over are an error where they count. -/
theorem LeavesOver.dispatch (h : r.LeavesOver tag cursor left) :
    (r.dispatch true tag cursor).result = .error left.leftoverError := by
  obtain ⟨⟨value, hc⟩, ha⟩ := leavesOver_iff.mp h
  rw [dispatch_eq, Reply.bind_result hc, conclude, Tag.leftoverError?_of_ne ha]
  rfl

/-- Where nothing that counts is left over, it makes no difference whether it would count. -/
theorem dispatch_strict (h : ∀ left, ¬ r.LeavesOver tag cursor left) :
    r.dispatch true tag cursor = r.dispatch false tag cursor := by
  rw [dispatch_eq, dispatch_eq]
  unfold Reply.bind
  cases hc : (r.chain tag cursor).result with
  | error e => rfl
  | ok a =>
      obtain ⟨value, left, handled⟩ := a
      have hconclude : conclude true (value, left, handled) =
          conclude false (value, left, handled) := by
        cases handled with
        | false => rfl
        | true =>
            have ha : left.attrs = [] := Classical.byContradiction fun ha =>
              h left (leavesOver_iff.mpr ⟨⟨value, hc⟩, ha⟩)
            have hl : left.leftoverError? = none := by
              unfold Tag.leftoverError?
              rw [ha]
              rfl
            rw [conclude_of_used value fun _ => hl, conclude_of_used value fun _ => hl]
      dsimp only
      rw [hconclude]

end Registry

/-! ## Two scans of one document -/

namespace Document

variable {d : Document} {s : Scan}

/-- The document, told whether attributes left over count. -/
def withStrict (d : Document) (strict : Bool) : Document :=
  { d with options := { d.options with strict } }

/-- Whether nothing that counts is left over of a tag that was handed over. -/
def UsesUp (d : Document) (x : Dispatch) : Prop :=
  ∀ left, ¬ d.registry.LeavesOver x.tag x.cursor left

/-- How the rest of a scan for which attributes left over count compares with that of one for which
they do not, when both have come to `s`. -/
inductive Compares (d : Document) (s : Scan) (lenient strict : Scan × Except TagError Unit) :
    Prop where
  /-- There is nothing to reject. -/
  | same (xs : List Dispatch) (hx : lenient.1.dispatches = s.dispatches ++ xs)
    (hs : strict = lenient) (hu : ∀ y ∈ xs, d.UsesUp y) : Compares d s lenient strict
  /-- The leftmost tag that leaves attributes over is rejected. -/
  | rejected {before after : List Dispatch} {x : Dispatch} {left : Tag}
    (hx : lenient.1.dispatches = s.dispatches ++ (before ++ x :: after))
    (hb : ∀ y ∈ before, d.UsesUp y) (hl : d.registry.LeavesOver x.tag x.cursor left)
    (ht : strict.1.dispatches.map Dispatch.told =
      (s.dispatches ++ (before ++ [x])).map Dispatch.told)
    (hr : strict.2 = .error left.leftoverError) : Compares d s lenient strict

/-- Both scans have gone on by one piece. -/
theorem Compares.add {p : Piece} {lenient strict : Scan × Except TagError Unit}
    (h : d.Compares (s.add p) lenient strict) (hp : ∀ x ∈ p.dispatch?, d.UsesUp x) :
    d.Compares s lenient strict := by
  have hmem {xs : List Dispatch} (hxs : ∀ y ∈ xs, d.UsesUp y) :
      ∀ y ∈ p.dispatch?.toList ++ xs, d.UsesUp y := by
    intro y hy
    rcases List.mem_append.mp hy with hy | hy
    · exact hp y (Option.mem_toList.mp hy)
    · exact hxs y hy
  cases h with
  | same xs hx hs hu =>
      refine .same (p.dispatch?.toList ++ xs) ?_ hs (hmem hu)
      rw [hx, Scan.add, List.append_assoc]
  | @rejected before after x left hx hb hl ht hr =>
      have hx' : lenient.1.dispatches =
          s.dispatches ++ ((p.dispatch?.toList ++ before) ++ x :: after) := by
        rw [hx, Scan.add]
        simp only [List.append_assoc]
      refine .rejected hx' (hmem hb) hl ?_ hr
      rw [ht, Scan.add]
      simp only [List.append_assoc]

/-- A tag that leaves nothing over is handed over in the same way to both scans. -/
theorem handed_withStrict {tag : Tag} {slot : Nat}
    (h : d.UsesUp ((d.withStrict false).handed tag slot)) :
    (d.withStrict true).handed tag slot = (d.withStrict false).handed tag slot :=
  congrArg (Dispatch.mk _ _) (Registry.dispatch_strict h)

/-- A tag that leaves attributes over is rejected, whatever the other scan does after it. -/
theorem compares_rejected {tag left : Tag} (rest : List Stretch)
    (h : d.registry.LeavesOver tag (d.cursorAt tag.position s.segments.length) left) :
    d.Compares s ((d.withStrict false).follow s (.command tag :: rest))
      ((d.withStrict true).follow s (.command tag :: rest)) := by
  have hr : ((d.withStrict true).handed tag s.segments.length).reply.result =
      .error left.leftoverError := h.dispatch
  obtain ⟨after, hx⟩ := (d.withStrict false).follow_command_dispatches s tag rest
  rw [follow_of_error hr]
  refine @Compares.rejected _ _ _ _ [] after _ left hx (by simp) h ?_ rfl
  rw [List.map_append, List.map_append]
  rfl

/-- **Two scans, one of which counts attributes left over, are the same up to such a tag.** -/
theorem follow_compares (d : Document) (s : Scan) (stretches : List Stretch) :
    d.Compares s ((d.withStrict false).follow s stretches)
      ((d.withStrict true).follow s stretches) := by
  -- one stretch after another, as long as no tag leaves attributes over
  induction stretches generalizing s with
  | nil => exact .same [] (List.append_nil _).symm rfl (by simp)
  | cons stretch stretches ih =>
      cases stretch with
      | literal text => exact (ih (s.add (.literal text))).add (by simp [Piece.dispatch?])
      | malformed e => exact .same [] (List.append_nil _).symm rfl (by simp)
      | command tag =>
          by_cases hu : d.UsesUp ((d.withStrict false).handed tag s.segments.length)
          · have heq := handed_withStrict hu
            cases hx : ((d.withStrict false).handed tag s.segments.length).reply.result with
            | ok a =>
                obtain ⟨replacement, left⟩ := a
                rw [follow_of_ok hx, follow_of_ok (heq ▸ hx), heq]
                refine (ih (s.add (.command _ replacement left))).add ?_
                intro y hy
                obtain rfl := Option.some.inj hy
                exact hu
            | error e =>
                rw [follow_of_error hx, follow_of_error (heq ▸ hx), heq]
                refine .same [_] rfl rfl ?_
                intro y hy
                obtain rfl := List.mem_singleton.mp hy
                exact hu
          · obtain ⟨left, hl⟩ := Classical.not_forall_not.mp hu
            exact compares_rejected stretches hl

theorem scan_compares (d : Document) :
    d.Compares {} (d.withStrict false).scan (d.withStrict true).scan := by
  rw [scan_eq_follow, scan_eq_follow]
  exact d.follow_compares {} _

/-- If two scans are the same, the tokenizations that they make differ in the option alone. -/
theorem tokenize_withStrict {strict strict' : Bool}
    (hs : (d.withStrict strict').scan = (d.withStrict strict).scan) {d' : Document}
    {notes : List String} (h : (d.withStrict strict).tokenize = (d', notes, .ok ())) :
    (d.withStrict strict').tokenize = (d'.withStrict strict', notes, .ok ()) := by
  unfold tokenize at h ⊢
  rw [hs]
  split at h
  · rename_i hp
    have hp' : (d.withStrict strict').phase = .hasSourceText := hp
    rw [hp']
    dsimp only at h ⊢
    split at h
    · cases h
      rfl
    · cases h
  · cases h
  · cases h
  · cases h

theorem phase_of_tokenize {d' : Document} {notes : List String}
    (h : d.tokenize = (d', notes, .ok ())) : d.phase = .hasSourceText := by
  unfold tokenize at h
  split at h
  · assumption
  · cases h
  · cases h
  · cases h

/-- **Counting leftover attributes only rejects.** A document that is tokenized while attributes
left over count is tokenized in the same way while they do not. And one that is tokenized while they
do not is, while they count, tokenized in the same way too, or it is rejected at the leftmost tag
that leaves attributes over, which is the last one handed over. The error is about this tag and
lists the names of what is left. If the handlers only consume, these stand in source order. -/
theorem strict_only_rejects (d d' : Document) (notes : List String) :
    ((d.withStrict true).tokenize = (d', notes, .ok ()) →
      (d.withStrict false).tokenize = (d'.withStrict false, notes, .ok ())) ∧
    ((d.withStrict false).tokenize = (d', notes, .ok ()) →
      ((d.withStrict true).tokenize = (d'.withStrict true, notes, .ok ()) ∧
        ∀ y ∈ (d.withStrict false).scan.1.dispatches, d.UsesUp y) ∨
      ∃ before x after left,
        (d.withStrict false).scan.1.dispatches = before ++ x :: after ∧
        (∀ y ∈ before, d.UsesUp y) ∧ d.registry.LeavesOver x.tag x.cursor left ∧
        (d.withStrict true).scan.1.dispatches.map Dispatch.told =
          (before ++ [x]).map Dispatch.told ∧
        (d.withStrict true).tokenize.2.2 = .error (.tag (left.error ("leftover attributes: " ++
          ", ".intercalate (left.leftover.map fun name => "\"" ++ name ++ "\"")))) ∧
        ((∀ key h, d.registry.resolve key = some h → h.Consumes) →
          left.label = x.tag.label ∧ left.leftover.Sublist x.tag.leftover)) := by
  constructor
  · intro h
    obtain ⟨s, hs, -, -⟩ := tokenize_eq_ok h
    cases d.scan_compares with
    | same xs hx heq hu => exact tokenize_withStrict heq.symm h
    | rejected hx hb hl ht hr =>
        rw [hs] at hr
        cases hr
  · intro h
    cases d.scan_compares with
    | same xs hx heq hu =>
        refine .inl ⟨tokenize_withStrict heq h, ?_⟩
        rw [hx]
        exact hu
    | @rejected before after x left hx hb hl ht hr =>
        refine .inr ⟨before, x, after, left, hx, hb, hl, ht, ?_, fun hc => ?_⟩
        · have hp : (d.withStrict false).phase = .hasSourceText := phase_of_tokenize h
          rw [tokenize_of_source (d := d.withStrict true) hp, hr]
          rfl
        · obtain ⟨value, handled, hchain⟩ := hl.chain
          have hconsumed := Registry.chain_consumed hc hchain
          exact ⟨hconsumed.label, hconsumed.leftover⟩

/-- A document of two tags with an attribute each, of which one has a handler that consumes it. -/
def leaving : Document where
  source := "<a x=\"\"><b y=\"\">"
  phase := .hasSourceText
  registry := (Registry.unmarked.insert "<a" (.handler fun _ tag _ =>
    .pure (.text "1", tag.without "x"))).insert Key.other (.handler fun _ tag _ =>
      .pure (.text "2", tag))

/-- The other one is rejected if attributes left over count. -/
theorem leaving_rejected : (leaving.withStrict false).tokenize.2.2 = .ok () ∧
    (∃ x left, x ∈ (leaving.withStrict false).scan.1.dispatches ∧
      leaving.registry.LeavesOver x.tag x.cursor left) ∧
    (leaving.withStrict true).tokenize.2.2 =
      .error (.tag ⟨"tag <b> @ 1:9", "leftover attributes: \"y\""⟩) := by
  have hx : attributesOf " x=\"\"".toList = .ok [("x", "")] :=
    @attributesFrom_written [] [("x", "")] (by decide) (by decide) (by decide)
  have hy : attributesOf " y=\"\"".toList = .ok [("y", "")] :=
    @attributesFrom_written [] [("y", "")] (by decide) (by decide) (by decide)
  have ha : leaving.registry.markers.recognise .start "a x=\"\"><b y=\"\">".toList =
      .ok (.command ⟨"a", none, [("x", "")], ⟨1, 1⟩, "<a x=\"\">"⟩ "<b y=\"\">".toList) :=
    Markers.recognise_eq_command.mpr ⟨"a x=\"\"".toList, "a x=\"\"".toList, none, _,
      rfl, rfl, by decide, rfl, hx, rfl⟩
  have hb : leaving.registry.markers.recognise ⟨1, 9⟩ "b y=\"\">".toList =
      .ok (.command ⟨"b", none, [("y", "")], ⟨1, 9⟩, "<b y=\"\">"⟩ []) :=
    Markers.recognise_eq_command.mpr ⟨"b y=\"\"".toList, "b y=\"\"".toList, none, _,
      rfl, rfl, by decide, rfl, hy, rfl⟩
  have ho : leaving.registry.markers.outline leaving.source =
      [.command ⟨"a", none, [("x", "")], ⟨1, 1⟩, "<a x=\"\">"⟩,
        .command ⟨"b", none, [("y", "")], ⟨1, 9⟩, "<b y=\"\">"⟩] := by
    rw [Markers.outline]
    exact (Markers.outlineFrom_command ha []).trans
      (congrArg (_ :: ·) ((Markers.outlineFrom_command hb []).trans
        (congrArg (_ :: ·) (Markers.outlineFrom_nil _ _ _))))
  have hscan (strict : Bool) :
      (leaving.withStrict strict).scan = (leaving.withStrict strict).follow {} _ :=
    (leaving.withStrict strict).scan_eq_follow.trans (congrArg _ ho)
  have hok : (leaving.withStrict false).tokenize.2.2 = .ok () := by
    rw [tokenize_of_source rfl, hscan]
    rfl
  have hfail : (leaving.withStrict true).tokenize.2.2 =
      .error (.tag ⟨"tag <b> @ 1:9", "leftover attributes: \"y\""⟩) := by
    rw [tokenize_of_source rfl, hscan]
    rfl
  refine ⟨hok, ?_, hfail⟩
  have h := (strict_only_rejects leaving (leaving.withStrict false).tokenize.1
    (leaving.withStrict false).tokenize.2.1).2 (by rw [← hok])
  rcases h with ⟨h, -⟩ | ⟨before, x, after, left, hx, -, hl, -⟩
  · rw [h] at hfail
    cases hfail
  · exact ⟨x, left, by rw [hx]; simp, hl⟩

end Document

end Inlay
