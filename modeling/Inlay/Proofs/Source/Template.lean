import Inlay.Proofs.Markup.TagEnd
import Inlay.Proofs.Source.Pieces

set_option autoImplicit false

/-! # Templates

A template is a text with tags written into it. A scan hands exactly its tags to their handlers,
and keeps the texts between them (`scan_template`). The texts may hold any markup of other kinds,
closed or not: all of it ends before the next tag begins, because outside of command tags quotes
mean nothing and no markup extends over a bracket (`scanFrom_quiet`).
-/

namespace Inlay

/-! ## Markup of other kinds -/

theorem unclosed?_prefix_body {markers : Markers} {body inner : List Char}
    (h : markers.unclosed? body = some inner) : inner <+: body := by
  unfold Markers.unclosed? at h
  split at h
  · cases h
    exact List.prefix_rfl
  · unfold withoutTail? at h
    split at h
    · cases h
      exact List.take_prefix _ _
    · cases h

/-- A name at the beginning of a text stands for a command only if the text begins like a tag. -/
theorem command?_unlike {markers : Markers} {name text : List Char}
    (h : markers.begins text = false) (hn : name <+: text) : markers.command? name = none := by
  unfold Markers.begins at h
  unfold Markers.command?
  cases hm : markers.opening with
  | none =>
      rw [hm] at h
      cases h
  | some opening =>
      rw [hm] at h
      dsimp only at h ⊢
      unfold withoutHead?
      rw [if_neg]
      · rfl
      · intro hp
        have ht := List.isPrefixOf_iff_prefix.mpr ((List.isPrefixOf_iff_prefix.mp hp).trans hn)
        rw [h] at ht
        cases ht

/-- Text that does not begin like a command tag is no command tag, and is not malformed. -/
theorem recognise_unlike {markers : Markers} {text : List Char} (h : markers.begins text = false)
    (position : Position) :
    markers.recognise position text = .ok .noTag ∨
      ∃ body rest, markers.recognise position text = .ok (.markup body rest) ∧
        text = body ++ '>' :: rest ∧ '<' ∉ body := by
  unfold Markers.recognise
  rw [h]
  split
  · exact .inl rfl
  · rename_i body rest hs
    have hm : text = body ++ '>' :: rest ∧ '<' ∉ body :=
      ⟨splitTag_eq hs, (splitTag_bracketless hs).1⟩
    split
    · exact .inr ⟨body, rest, rfl, hm⟩
    · rename_i inner hi
      dsimp only
      split
      · exact .inl rfl
      · have hc : markers.command? (nameOf inner) = none := by
          apply command?_unlike h
          rw [hm.1]
          exact ((List.takeWhile_prefix _).trans (unclosed?_prefix_body hi)).trans
            (List.prefix_append _ _)
        rw [hc]
        exact .inr ⟨body, rest, rfl, hm⟩

/-! ## Quiet texts -/

/-- Whether no tag seems to begin in a text. -/
def Quiet (opening : String) (text : List Char) : Prop := ¬ '<' :: opening.toList <:+: text

/-- What can follow a text of a template: nothing, or a tag. -/
def Bounds (rest : List Char) : Prop := rest = [] ∨ ∃ r, rest = '<' :: r

theorem Quiet.of_suffix {opening : String} {text text' : List Char} (h : Quiet opening text)
    (hs : text' <:+ text) : Quiet opening text' := fun ht => h (ht.trans hs.isInfix)

/-- No opening marker begins in a quiet text and ends in what follows. -/
theorem begins_quiet {markers : Markers} {opening : String} (hm : markers.opening = some opening)
    (ho : '<' ∉ opening.toList) {text rest : List Char} (hq : Quiet opening ('<' :: text))
    (hr : Bounds rest) : markers.begins (text ++ rest) = false := by
  unfold Markers.begins
  rw [hm]
  dsimp only
  rw [← Bool.not_eq_true, List.isPrefixOf_iff_prefix]
  intro h
  -- the marker lies in the text, or it reaches the bracket after it, which it does not hold
  by_cases hl : opening.toList.length ≤ text.length
  · have hp := List.prefix_of_prefix_length_le h (List.prefix_append _ _) hl
    exact hq (List.prefix_cons_iff.mpr (.inr ⟨_, rfl, hp⟩)).isInfix
  · obtain ⟨t, ht⟩ := List.prefix_of_prefix_length_le (List.prefix_append _ _) h
      (Nat.le_of_not_le hl)
    rw [← ht, List.prefix_append_right_inj] at h
    cases t with
    | nil => simp [← ht] at hl
    | cons c t =>
        rcases hr with rfl | ⟨r, rfl⟩
        · exact absurd (List.prefix_nil.mp h) (List.cons_ne_nil _ _)
        · rw [List.cons_prefix_cons] at h
          apply ho
          rw [← ht, h.1]
          exact List.mem_append_right _ List.mem_cons_self

/-- Markup that begins in a text of a template ends in it. -/
theorem exists_of_append_eq {text rest body r : List Char} (h : text ++ rest = body ++ '>' :: r)
    (hb : '<' ∉ body) (hr : Bounds rest) :
    ∃ text', text = body ++ '>' :: text' ∧ r = text' ++ rest := by
  rcases List.append_eq_append_iff.mp h with ⟨t, ht, hrest⟩ | ⟨t, ht, hrest⟩
  · -- the body would reach over the bracket that follows the text
    exfalso
    rcases hr with rfl | ⟨r', rfl⟩
    · exact absurd (congrArg List.length hrest) (by simp)
    · cases t with
      | nil => simp at hrest
      | cons c t =>
          apply hb
          rw [ht, (List.cons.inj hrest).1]
          exact List.mem_append_right _ List.mem_cons_self
  · cases t with
    | nil =>
        exfalso
        rcases hr with rfl | ⟨r', rfl⟩ <;> simp at hrest
    | cons c t =>
        obtain ⟨rfl, rfl⟩ := List.cons.inj hrest
        exact ⟨t, ht, rfl⟩

namespace Document

/-- A scan keeps a quiet text as literal text, up to the tag that follows it. -/
theorem scanFrom_quiet {d : Document} {opening : String}
    (hm : d.registry.markers.opening = some opening) (ho : '<' ∉ opening.toList) (s : Scan)
    (position : Position) (passed text rest : List Char) (hq : Quiet opening text)
    (hr : Bounds rest) :
    d.scanFrom s position passed (text ++ rest) =
      d.scanFrom s (position.after text) (text.reverse ++ passed) rest := by
  match text with
  | [] => rfl
  | c :: text =>
    have hq' := hq.of_suffix (List.suffix_cons c text)
    by_cases hc : c = '<'
    · subst hc
      -- a bracket alone is passed, and other markup is passed as a whole
      rcases recognise_unlike (begins_quiet hm ho hq hr) position with h | ⟨body, r, h, ht, hb⟩
      · rw [List.cons_append, scanFrom_noTag d s passed h,
          scanFrom_quiet hm ho s _ _ text rest hq' hr, List.reverse_cons, List.append_assoc]
        rfl
      · obtain ⟨text', rfl, rfl⟩ := exists_of_append_eq ht hb hr
        have hs : text' <:+ body ++ '>' :: text' :=
          (List.suffix_cons _ _).trans (List.suffix_append _ _)
        rw [List.cons_append, scanFrom_markup d s passed h,
          scanFrom_quiet hm ho s _ _ text' rest (hq'.of_suffix hs) hr, ← Position.after_append]
        simp
    · rw [List.cons_append, scanFrom_cons d s passed hc,
        scanFrom_quiet hm ho s _ _ text rest hq' hr, List.reverse_cons, List.append_assoc]
      rfl
termination_by text.length

end Document

/-! ## Templates -/

/-- A text with tags written into it: the text before the first tag, and each tag with the text that
follows it. -/
structure Template where
  head : String
  tail : List (TagForm × String)

/-- The segments of a literal text: one, unless it is empty. -/
def literalSegments (text : String) : List Segment := if text = "" then [] else [.text text]

theorem Scan.literal_segments (s : Scan) (text : String) :
    (s.literal text.toList).segments = s.segments ++ literalSegments text := by
  unfold literal literalSegments
  by_cases h : text = ""
  · rw [if_pos h, if_pos (by rw [h]; rfl), List.append_nil]
  · rw [if_neg h, if_neg (by simpa using h), String.ofList_toList]

theorem Scan.literal_dispatches (s : Scan) (text : List Char) :
    (s.literal text).dispatches = s.dispatches := by
  unfold literal
  split <;> rfl

/-- What replaces a tag that was handled. -/
def Dispatch.segment? (x : Dispatch) : Option Segment :=
  match x.reply.result with
  | .ok (replacement, _) => some replacement.segment
  | .error _ => none

namespace Template

variable (opening : String) (closing : Option String)

/-- Some tags and the texts after them, as they are written. -/
def tailSource (tail : List (TagForm × String)) : List Char :=
  tail.flatMap fun x => x.1.written opening closing ++ x.2.toList

/-- The template as it is written. -/
def source (t : Template) : List Char := t.head.toList ++ tailSource opening closing t.tail

/-- Whether a template may be written: its tags are well-formed, and no text of it seems to begin a
tag. -/
structure WellFormed (t : Template) : Prop where
  forms : ∀ x ∈ t.tail, x.1.WellFormed
  head : Quiet opening t.head.toList
  texts : ∀ x ∈ t.tail, Quiet opening x.2.toList

/-- The tags, the first of which stands at a position. -/
def tagsFrom : Position → List (TagForm × String) → List Tag
  | _, [] => []
  | position, (f, text) :: tail =>
    f.tag opening closing position ::
      tagsFrom ((position.after (f.written opening closing)).after text.toList) tail

/-- The tags of the template. -/
def tags (t : Template) : List Tag :=
  tagsFrom opening closing (Position.start.after t.head.toList) t.tail

/-- The segments of the tags and of the texts after them. -/
def tailSegments : List Segment → List (TagForm × String) → List Segment
  | segment :: replaced, (_, text) :: tail =>
    segment :: literalSegments text ++ tailSegments replaced tail
  | _, _ => []

/-- The segments of the template, when its tags are replaced by the given ones. -/
def segments (replaced : List Segment) (t : Template) : List Segment :=
  literalSegments t.head ++ tailSegments replaced t.tail

end Template

namespace Document

variable {d : Document} {opening : String} {closing : Option String}

/-- Handle the tags of a template one after another, each with the text before it. -/
def handleTail (d : Document) (opening : String) (closing : Option String) (s : Scan)
    (position : Position) (text : List Char) :
    List (TagForm × String) → Scan × Except TagError Unit
  | [] => (s.literal text, .ok ())
  | (f, next) :: tail =>
    match d.handleTag (s.literal text) (f.tag opening closing position) with
    | (s, .ok ()) =>
      d.handleTail opening closing s
        ((position.after (f.written opening closing)).after next.toList) next.toList tail
    | (s, .error e) => (s, .error e)

theorem bounds_tailSource (tail : List (TagForm × String)) :
    Bounds (Template.tailSource opening closing tail) := by
  cases tail with
  | nil => exact .inl rfl
  | cons x tail => exact .inr ⟨_, rfl⟩

/-- Scanning a template handles its tags one after another. -/
theorem scanFrom_tail (hm : d.registry.markers = ⟨some opening, closing⟩) (ho : opening ≠ "")
    (hop : Plain opening.toList) (hc : Plain (closing.getD "").toList)
    {tail : List (TagForm × String)} (hf : ∀ x ∈ tail, x.1.WellFormed)
    (ht : ∀ x ∈ tail, Quiet opening x.2.toList) {text : List Char} (hq : Quiet opening text)
    (s : Scan) (position : Position) :
    d.scanFrom s position [] (text ++ Template.tailSource opening closing tail) =
      d.handleTail opening closing s (position.after text) text tail := by
  have hlt : '<' ∉ opening.toList := fun h => by simpa [isPlain] using hop _ h
  have hmo : d.registry.markers.opening = some opening := by rw [hm]
  have hmc : d.registry.markers.closing = closing := by rw [hm]
  induction tail generalizing s position text with
  | nil =>
      rw [scanFrom_quiet hmo hlt s position [] text _ hq (bounds_tailSource _), List.append_nil]
      show d.scanFrom s _ _ [] = _
      rw [scanFrom_nil, List.reverse_reverse]
      rfl
  | cons x tail ih =>
      obtain ⟨f, next⟩ := x
      have hx : Template.tailSource opening closing ((f, next) :: tail) =
          '<' :: (f.body opening closing ++ '>' ::
            (next.toList ++ Template.tailSource opening closing tail)) := by
        simp [Template.tailSource, TagForm.written]
      have hr := f.recognise_written hmo ho hop (by rw [hmc]; exact hc)
        (hf _ List.mem_cons_self) (position.after text)
        (next.toList ++ Template.tailSource opening closing tail)
      rw [hmc] at hr
      have hw : (f.tag opening closing (position.after text)).source.toList =
          f.written opening closing := String.toList_ofList
      calc d.scanFrom s position []
              (text ++ Template.tailSource opening closing ((f, next) :: tail))
          = d.scanFrom s (position.after text) text.reverse
              (Template.tailSource opening closing ((f, next) :: tail)) := by
            rw [scanFrom_quiet hmo hlt s position [] text _ hq (bounds_tailSource _),
              List.append_nil]
        _ = d.handleTail opening closing s (position.after text) text ((f, next) :: tail) := by
            rw [hx, scanFrom_command d s _ hr, List.reverse_reverse, handleTail]
            rcases d.handleTag (s.literal text) (f.tag opening closing (position.after text)) with
              ⟨s', r⟩
            cases r with
            | error e => rfl
            | ok _ =>
                dsimp only
                rw [hw]
                exact ih (fun y hy => hf y (List.mem_cons_of_mem _ hy))
                  (fun y hy => ht y (List.mem_cons_of_mem _ hy)) (ht _ List.mem_cons_self) s' _

/-! ## What the handlers are given -/

/-- A tag is handed to its handlers, and becomes a segment if they do not fail. -/
theorem handleTag_dispatch (d : Document) (s : Scan) (tag : Tag) : ∃ x : Dispatch, x.tag = tag ∧
    x.reply = d.registry.dispatch d.options.strict x.tag x.cursor ∧
    (d.handleTag s tag).1.dispatches = s.dispatches ++ [x] ∧
    match x.segment? with
    | some segment => (d.handleTag s tag).2 = .ok () ∧
      (d.handleTag s tag).1.segments = s.segments ++ [segment]
    | none => ∃ e, (d.handleTag s tag).2 = .error e := by
  refine ⟨d.handed tag s.segments.length, rfl, rfl, ?_⟩
  unfold Dispatch.segment?
  cases hx : (d.handed tag s.segments.length).reply.result with
  | ok a =>
      rw [handleTag_of_ok hx]
      exact ⟨rfl, rfl, rfl⟩
  | error e =>
      rw [handleTag_of_error hx]
      exact ⟨rfl, e, rfl⟩

/-- What `handleTail` comes to when some tags were handed to their handlers: they are the first ones
of the template, and all of them if no handler failed. -/
structure HandsOver (d : Document) (opening : String) (closing : Option String) (s : Scan)
    (position : Position) (text : String) (tail : List (TagForm × String))
    (r : Scan × Except TagError Unit) (handed : List Dispatch) : Prop where
  dispatches : r.1.dispatches = s.dispatches ++ handed
  replies : ∀ x ∈ handed, x.reply = d.registry.dispatch d.options.strict x.tag x.cursor
  tags : handed.map Dispatch.tag <+: Template.tagsFrom opening closing position tail
  all : (∀ x ∈ handed, x.segment?.isSome) →
    r.2 = .ok () ∧ handed.map Dispatch.tag = Template.tagsFrom opening closing position tail ∧
      r.1.segments = s.segments ++ (literalSegments text ++
        Template.tailSegments (handed.filterMap Dispatch.segment?) tail)

namespace HandsOver

variable {s s' : Scan} {position : Position} {text next : String} {f : TagForm}
  {tail : List (TagForm × String)} {x : Dispatch}

theorem nil :
    HandsOver d opening closing s position text [] (s.literal text.toList, .ok ()) [] where
  dispatches := by rw [s.literal_dispatches, List.append_nil]
  replies := by simp
  tags := List.prefix_rfl
  all _ := by
    refine ⟨rfl, rfl, ?_⟩
    rw [s.literal_segments]
    simp [Template.tailSegments]

/-- The first tag is the last one handed over if its handlers fail. -/
theorem fail {e : TagError} (hx : x.tag = f.tag opening closing position)
    (hr : x.reply = d.registry.dispatch d.options.strict x.tag x.cursor)
    (hd : s'.dispatches = s.dispatches ++ [x]) (hs : x.segment? = none) :
    HandsOver d opening closing s position text ((f, next) :: tail) (s', .error e) [x] where
  dispatches := hd
  replies := by simpa using hr
  tags := by
    rw [List.map_singleton, hx, Template.tagsFrom]
    exact List.prefix_append _ _
  all h := by
    have hx := h x List.mem_cons_self
    rw [hs] at hx
    cases hx

/-- The first tag is handed over before the others if its handlers do not fail. -/
theorem cons {segment : Segment} {r : Scan × Except TagError Unit} {handed : List Dispatch}
    (hx : x.tag = f.tag opening closing position)
    (hr : x.reply = d.registry.dispatch d.options.strict x.tag x.cursor)
    (hd : s'.dispatches = s.dispatches ++ [x]) (hs : x.segment? = some segment)
    (hg : s'.segments = (s.literal text.toList).segments ++ [segment])
    (h : HandsOver d opening closing s'
      ((position.after (f.written opening closing)).after next.toList) next tail r handed) :
    HandsOver d opening closing s position text ((f, next) :: tail) r (x :: handed) where
  dispatches := by
    rw [h.dispatches, hd, List.append_assoc]
    rfl
  replies z hz := by
    rcases List.mem_cons.mp hz with rfl | hz
    · exact hr
    · exact h.replies z hz
  tags := by
    rw [List.map_cons, hx, Template.tagsFrom, List.cons_prefix_cons]
    exact ⟨rfl, h.tags⟩
  all hall := by
    obtain ⟨ho, ht, hseg⟩ := h.all fun z hz => hall z (List.mem_cons_of_mem _ hz)
    refine ⟨ho, ?_, ?_⟩
    · rw [List.map_cons, hx, ht, Template.tagsFrom]
    · rw [hseg, hg, s.literal_segments, List.filterMap_cons_some hs, Template.tailSegments]
      simp

end HandsOver

theorem handleTail_handsOver (d : Document) (opening : String) (closing : Option String)
    (tail : List (TagForm × String)) (s : Scan) (position : Position) (text : String) :
    ∃ handed, HandsOver d opening closing s position text tail
      (d.handleTail opening closing s position text.toList tail) handed := by
  induction tail generalizing s position text with
  | nil => exact ⟨[], .nil⟩
  | cons y tail ih =>
      obtain ⟨f, next⟩ := y
      obtain ⟨x, hx, hr, hd, hs⟩ :=
        d.handleTag_dispatch (s.literal text.toList) (f.tag opening closing position)
      rw [s.literal_dispatches] at hd
      rw [handleTail]
      rcases hh : d.handleTag (s.literal text.toList) (f.tag opening closing position) with ⟨s', r⟩
      rw [hh] at hd hs
      -- if the handlers fail the scan ends here, and else the induction goes on
      cases hseg : x.segment? with
      | none =>
          rw [hseg] at hs
          obtain ⟨e, he⟩ := hs
          obtain rfl : r = .error e := he
          exact ⟨[x], .fail hx hr hd hseg⟩
      | some segment =>
          rw [hseg] at hs
          obtain rfl : r = .ok () := hs.1
          obtain ⟨handed, h⟩ := ih s'
            ((position.after (f.written opening closing)).after next.toList) next
          exact ⟨x :: handed, h.cons hx hr hd hseg hs.2⟩

/-- **A template is scanned as it was written.** The tags handed to their handlers are those of the
template, in order, each with its command, its attributes and its source, up to the first that a
handler fails on. If none fails, all tags are handed over, and the segments are those that replace
them, with the texts between them that are not empty. -/
theorem scan_template {t : Template} (hm : d.registry.markers = ⟨some opening, closing⟩)
    (ho : opening ≠ "") (hop : Plain opening.toList) (hc : ∀ c ∈ closing, Plain c.toList)
    (ht : t.WellFormed opening) (hs : d.source = String.ofList (t.source opening closing)) :
    (∀ x ∈ d.scan.1.dispatches,
      x.reply = d.registry.dispatch d.options.strict x.tag x.cursor) ∧
    d.scan.1.dispatches.map Dispatch.tag <+: t.tags opening closing ∧
    ((∀ x ∈ d.scan.1.dispatches, ∃ a, x.reply.result = .ok a) →
      d.scan.2 = .ok () ∧ d.scan.1.dispatches.map Dispatch.tag = t.tags opening closing ∧
      d.scan.1.segments = t.segments (d.scan.1.dispatches.filterMap Dispatch.segment?)) := by
  have hcl : Plain (closing.getD "").toList := by
    cases closing with
    | none => exact fun _ h => absurd h List.not_mem_nil
    | some c => exact hc c rfl
  have hscan : d.scan = d.handleTail opening closing {} (Position.start.after t.head.toList)
      t.head.toList t.tail := by
    unfold scan
    rw [hs, String.toList_ofList]
    exact scanFrom_tail hm ho hop hcl ht.forms ht.texts ht.head {} .start
  obtain ⟨handed, h⟩ := d.handleTail_handsOver opening closing
    t.tail {} (Position.start.after t.head.toList) t.head
  rw [hscan, h.dispatches]
  refine ⟨h.replies, h.tags, fun hall => h.all fun x hx => ?_⟩
  obtain ⟨a, ha⟩ := hall x hx
  unfold Dispatch.segment?
  rw [ha]
  rfl

/-- A template with an apostrophe, an unclosed bracket and a comment around its tags, and with a
value that holds brackets and quotes. -/
def strayMarkup : Template where
  head := "it's <b"
  tail := [(⟨"x", [("k", "a<\"&'>")]⟩, " <!-- ' -->"), (⟨"y", []⟩, "")]

theorem strayMarkup_wellFormed : strayMarkup.WellFormed "!--#" where
  forms := by
    intro x hx
    simp only [strayMarkup, List.mem_cons, List.not_mem_nil, or_false] at hx
    rcases hx with rfl | rfl
    · exact ⟨by decide, by decide, by decide⟩
    · exact ⟨by decide, by decide, by decide⟩
  head := by
    unfold Quiet
    decide +kernel
  texts := by
    unfold Quiet
    decide +kernel

theorem filterMap_kept {xs : List Dispatch}
    (h : ∀ x ∈ xs, x.segment? = some (.text x.tag.source)) :
    xs.filterMap Dispatch.segment? =
      (xs.map Dispatch.tag).map fun tag => Segment.text tag.source := by
  induction xs with
  | nil => rfl
  | cons x xs ih =>
      rw [List.filterMap_cons_some (h x List.mem_cons_self), ih fun y hy =>
        h y (List.mem_cons_of_mem _ hy)]
      rfl

/-- Neither the tags nor the texts are lost among the other markup. -/
theorem strayMarkup_scan :
    let d : Document := { source := String.ofList (strayMarkup.source "!--#" (some "--")) }
    d.scan.2 = .ok () ∧ (d.scan.1.dispatches.map fun x => x.tag.attrs) = [[("k", "a<\"&'>")], []] ∧
      d.scan.1.segments = [.text "it's <b", .text "<!--#x k=\"a<&quot;&amp;'>\"-->",
        .text " <!-- ' -->", .text "<!--#y-->"] := by
  intro d
  obtain ⟨reply, _, all⟩ := scan_template (d := d) rfl (by decide) (by decide) (by decide)
    strayMarkup_wellFormed rfl
  -- there are no handlers, so none fails and every tag is kept as it is
  obtain ⟨hres, htags, hseg⟩ := all fun x hx => ⟨_, by rw [reply x hx]; rfl⟩
  have hkept : ∀ x ∈ d.scan.1.dispatches, x.segment? = some (.text x.tag.source) := by
    intro x hx
    unfold Dispatch.segment?
    rw [reply x hx]
    rfl
  refine ⟨hres, ?_, ?_⟩
  · have h := congrArg (List.map Tag.attrs) htags
    rw [List.map_map] at h
    exact h
  · rw [hseg, filterMap_kept hkept, htags]
    decide +kernel

end Document

end Inlay
