import Inlay.Proofs.Markup.Written
import Inlay.Proofs.Source.Pieces

set_option autoImplicit false

/-! # The outline of a source

The markers alone cut a source into stretches: literal texts, command tags and, where one is
malformed, that tag, with which the outline ends. No handler is asked for it. A scan follows the
outline (`scan_eq_follow`): it hands over the tags one after another, each with the number of its
stretch, and stops at the first one that is malformed or whose handlers fail (`RunsAlong`). So two
scans of one source with the same markers hand over the same tags as long as both go on, whatever
handlers, variables and options they have (`tags_agree`), and a text that replaces a tag is never
read as another one. A handler is told the number of its segment, which no other tag of the scan
has, so this covers handlers that remember what they were given before.
-/

namespace Inlay

/-- A part of a source as the markers tell it. -/
inductive Stretch where
  | literal (text : String)
  | command (tag : Tag)
  | malformed (error : TagError)

/-- The stretch of a literal text that was read, last character first, if there is any text. -/
def literalStretches (passed : List Char) : List Stretch :=
  if passed.isEmpty then [] else [.literal (String.ofList passed.reverse)]

namespace Markers

theorem rest_length_of_markup {m : Markers} {p : Position} {text body rest : List Char}
    (h : m.recognise p text = .ok (.markup body rest)) : rest.length < text.length := by
  rw [recognise_markup h, List.length_append, List.length_cons]
  omega

theorem rest_length_of_command {m : Markers} {p : Position} {text rest : List Char} {tag : Tag}
    (h : m.recognise p text = .ok (.command tag rest)) : rest.length < text.length := by
  obtain ⟨body, -, ht, -⟩ := recognise_command h
  rw [ht, List.length_append, List.length_cons]
  omega

/-- The stretches of a text that stands at `position`, after the literal text `passed`, which was
read last character first. The text before a malformed tag is no stretch, as no scan keeps it. -/
def outlineFrom (m : Markers) (position : Position) (passed text : List Char) : List Stretch :=
  match text with
  | [] => literalStretches passed
  | c :: text =>
    if c != '<' then m.outlineFrom (position.next c) (c :: passed) text
    else
      match _h : m.recognise position text with
      | .error e => [.malformed e]
      | .ok .noTag => m.outlineFrom (position.next c) (c :: passed) text
      | .ok (.markup body rest) =>
        let source := c :: body ++ ['>']
        m.outlineFrom (position.after source) (source.reverse ++ passed) rest
      | .ok (.command tag rest) =>
        literalStretches passed ++
          .command tag :: m.outlineFrom (position.after tag.source.toList) [] rest
termination_by text.length
decreasing_by
  · simp
  · simp
  · exact Nat.lt_succ_of_lt (rest_length_of_markup _h)
  · exact Nat.lt_succ_of_lt (rest_length_of_command _h)

/-- The stretches of a source. -/
def outline (m : Markers) (source : String) : List Stretch :=
  m.outlineFrom .start [] source.toList

theorem outlineFrom_nil (m : Markers) (position : Position) (passed : List Char) :
    m.outlineFrom position passed [] = literalStretches passed := by
  rw [outlineFrom]

theorem outlineFrom_command {m : Markers} {position : Position} {text rest : List Char} {tag : Tag}
    (h : m.recognise position text = .ok (.command tag rest)) (passed : List Char) :
    m.outlineFrom position passed ('<' :: text) = literalStretches passed ++
      .command tag :: m.outlineFrom (position.after tag.source.toList) [] rest := by
  rw [outlineFrom, if_neg (by decide)]
  split <;> simp_all

/-- Whether a stretch was found in a text: a tag was recognised there, or it is malformed there. -/
def Found (m : Markers) (text : List Char) : Stretch → Prop
  | .literal _ => True
  | .command tag => ∃ text' rest, '<' :: text' <:+ text ∧
    m.recognise tag.position text' = .ok (.command tag rest)
  | .malformed e => ∃ position text', '<' :: text' <:+ text ∧ m.recognise position text' = .error e

theorem Found.of_suffix {m : Markers} {text text' : List Char} {x : Stretch}
    (h : m.Found text' x) (hs : text' <:+ text) : m.Found text x := by
  cases x with
  | literal _ => trivial
  | command tag =>
      obtain ⟨text'', rest, ht, hr⟩ := h
      exact ⟨text'', rest, ht.trans hs, hr⟩
  | malformed e =>
      obtain ⟨position, text'', ht, hr⟩ := h
      exact ⟨position, text'', ht.trans hs, hr⟩

/-- What follows the brackets of a tag is an end of the text. -/
theorem suffix_of_bracketed {body rest text : List Char} (h : text = body ++ '>' :: rest) :
    rest <:+ '<' :: text := by
  rw [h]
  exact (List.suffix_cons _ _).trans ((List.suffix_append _ _).trans (List.suffix_cons _ _))

theorem found_of_mem_outlineFrom {m : Markers} {position : Position} {passed text : List Char}
    {x : Stretch} (h : x ∈ m.outlineFrom position passed text) : m.Found text x := by
  have hliteral {passed text : List Char} (h : x ∈ literalStretches passed) : m.Found text x := by
    unfold literalStretches at h
    split at h
    · cases h
    · obtain rfl := List.mem_singleton.mp h
      trivial
  -- each step of the outline goes on with an end of the text
  fun_induction m.outlineFrom position passed text with
  | case1 => exact hliteral h
  | case2 _ _ c text _ ih => exact (ih h).of_suffix (List.suffix_cons c text)
  | case3 position _ c text hc e hr =>
      obtain rfl : c = '<' := by simpa using hc
      obtain rfl := List.mem_singleton.mp h
      exact ⟨position, text, List.suffix_refl _, hr⟩
  | case4 _ _ c text _ _ ih => exact (ih h).of_suffix (List.suffix_cons c text)
  | case5 _ _ c text hc body rest hr _ ih =>
      obtain rfl : c = '<' := by simpa using hc
      exact (ih h).of_suffix (suffix_of_bracketed (recognise_markup hr))
  | case6 position _ c text hc tag rest hr ih =>
      obtain rfl : c = '<' := by simpa using hc
      obtain ⟨body, -, ht, hp⟩ := recognise_command hr
      rcases List.mem_append.mp h with h | h
      · exact hliteral h
      · rcases List.mem_cons.mp h with rfl | h
        · exact ⟨text, rest, List.suffix_refl _, hp ▸ hr⟩
        · exact (ih h).of_suffix (suffix_of_bracketed ht)

end Markers

/-- The error of the handlers of a tag, if they failed. -/
def Dispatch.error? (x : Dispatch) : Option TagError :=
  match x.reply.result with
  | .ok _ => none
  | .error e => some e

theorem Dispatch.error?_eq_some {x : Dispatch} {e : TagError} :
    x.error? = some e ↔ x.reply.result = .error e := by
  unfold error?
  cases x.reply.result <;> simp

namespace Document

variable {d : Document} {s : Scan}

/-! ## A scan follows the outline -/

/-- Go on with a scan along some stretches. -/
def follow (d : Document) (s : Scan) : List Stretch → Scan × Except TagError Unit
  | [] => (s, .ok ())
  | .literal text :: rest => d.follow (s.add (.literal text)) rest
  | .command tag :: rest =>
    match d.handleTag s tag with
    | (s, .ok ()) => d.follow s rest
    | (s, .error e) => (s, .error e)
  | .malformed e :: _ => (s, .error e)

theorem follow_of_ok {tag left : Tag} {replacement : Replacement}
    (h : (d.handed tag s.segments.length).reply.result = .ok (replacement, left))
    (rest : List Stretch) : d.follow s (.command tag :: rest) =
      d.follow (s.add (.command (d.handed tag s.segments.length) replacement left)) rest := by
  rw [follow, handleTag_of_ok h]

theorem follow_of_error {tag : Tag} {e : TagError}
    (h : (d.handed tag s.segments.length).reply.result = .error e) (rest : List Stretch) :
    d.follow s (.command tag :: rest) =
      ({ s with dispatches := s.dispatches ++ [d.handed tag s.segments.length] }, .error e) := by
  rw [follow, handleTag_of_error h]

theorem follow_literalStretches (d : Document) (s : Scan) (passed : List Char)
    (rest : List Stretch) :
    d.follow s (literalStretches passed ++ rest) = d.follow (s.literal passed.reverse) rest := by
  unfold literalStretches
  cases passed with
  | nil => rfl
  | cons c passed =>
      rw [s.literal_eq (by simp)]
      rfl

theorem scanFrom_eq_follow (d : Document) (s : Scan) (position : Position)
    (passed text : List Char) : d.scanFrom s position passed text =
      d.follow s (d.registry.markers.outlineFrom position passed text) := by
  -- the induction follows the outline, in which a tag has been found already
  generalize hm : d.registry.markers = m
  fun_induction Markers.outlineFrom m position passed text generalizing s with
  | case1 position passed =>
      rw [scanFrom_nil, ← List.append_nil (literalStretches passed), follow_literalStretches]
      rfl
  | case2 position passed c text hc ih => rw [scanFrom_cons _ _ _ (bne_iff_ne.mp hc), ih]
  | case3 position passed c text hc e hr =>
      obtain rfl : c = '<' := by simpa using hc
      rw [scanFrom_malformed _ _ _ (hm ▸ hr)]
      rfl
  | case4 position passed c text hc hr ih =>
      obtain rfl : c = '<' := by simpa using hc
      rw [scanFrom_noTag _ _ _ (hm ▸ hr), ih]
  | case5 position passed c text hc body rest hr source ih =>
      obtain rfl : c = '<' := by simpa using hc
      rw [scanFrom_markup _ _ _ (hm ▸ hr)]
      exact ih s
  | case6 position passed c text hc tag rest hr ih =>
      obtain rfl : c = '<' := by simpa using hc
      rw [scanFrom_command _ _ _ (hm ▸ hr), follow_literalStretches, follow]
      cases d.handleTag (s.literal passed.reverse) tag with
      | mk s' r =>
          cases r with
          | ok u => exact ih s'
          | error e => rfl

/-- **A scan follows the outline of its source.** -/
theorem scan_eq_follow (d : Document) :
    d.scan = d.follow {} (d.registry.markers.outline d.source) :=
  d.scanFrom_eq_follow {} .start [] d.source.toList

theorem follow_congr {d' : Document} (h : ∀ tag slot, d.handed tag slot = d'.handed tag slot)
    (s : Scan) (stretches : List Stretch) : d.follow s stretches = d'.follow s stretches := by
  induction stretches generalizing s with
  | nil => rfl
  | cons stretch stretches ih =>
      cases stretch with
      | literal text => exact ih _
      | malformed e => rfl
      | command tag =>
          cases hx : (d.handed tag s.segments.length).reply.result with
          | ok a => rw [follow_of_ok hx, follow_of_ok (h _ _ ▸ hx), ih, h]
          | error e => rw [follow_of_error hx, follow_of_error (h _ _ ▸ hx), h]

/-- Documents with one source and the same markers that hand over each tag alike have one scan. -/
theorem scan_congr {d' : Document} (hs : d.source = d'.source)
    (hm : d.registry.markers = d'.registry.markers)
    (h : ∀ tag slot, d.handed tag slot = d'.handed tag slot) : d.scan = d'.scan := by
  rw [scan_eq_follow, scan_eq_follow, hs, hm, follow_congr h]

/-! ## Where a scan stops -/

/-- The tag of a numbered stretch, handed to its handlers. -/
def handed? (d : Document) : Stretch × Nat → Option Dispatch
  | (.command tag, slot) => some (d.handed tag slot)
  | _ => none

/-- What stops a scan at a numbered stretch: the tag is malformed, or its handlers fail. -/
def fault? (d : Document) : Stretch × Nat → Option TagError
  | (.literal _, _) => none
  | (.command tag, slot) => (d.handed tag slot).error?
  | (.malformed e, _) => some e

/-- Whether a scan along numbered stretches hands over just the given tags and ends as told. -/
inductive RunsAlong (d : Document) (stretches : List (Stretch × Nat)) (xs : List Dispatch) :
    Except TagError Unit → Prop where
  /-- Nothing stops the scan, and all tags are handed over. -/
  | whole (h : ∀ x ∈ stretches, d.fault? x = none) (hx : xs = stretches.filterMap d.handed?) :
    RunsAlong d stretches xs (.ok ())
  /-- The scan stops at the leftmost stretch with a fault: its tag is the last one handed over. -/
  | stopped {before after : List (Stretch × Nat)} {x : Stretch × Nat} {e : TagError}
    (h : stretches = before ++ x :: after) (hb : ∀ y ∈ before, d.fault? y = none)
    (he : d.fault? x = some e) (hx : xs = (before ++ [x]).filterMap d.handed?) :
    RunsAlong d stretches xs (.error e)

namespace RunsAlong

variable {stretches : List (Stretch × Nat)} {xs : List Dispatch} {r : Except TagError Unit}

/-- A stretch without a fault may stand before the others. -/
theorem cons {x : Stretch × Nat} (hx : d.fault? x = none) (h : d.RunsAlong stretches xs r) :
    d.RunsAlong (x :: stretches) ((d.handed? x).toList ++ xs) r := by
  have hcons (l : List (Stretch × Nat)) :
      (d.handed? x).toList ++ l.filterMap d.handed? = (x :: l).filterMap d.handed? := by
    rw [List.filterMap_cons]
    cases d.handed? x <;> rfl
  cases h with
  | whole h hxs =>
      refine .whole ?_ (by rw [hxs, hcons])
      intro y hy
      rcases List.mem_cons.mp hy with rfl | hy
      · exact hx
      · exact h y hy
  | @stopped before after z e h hb he hxs =>
      have h' : x :: stretches = (x :: before) ++ z :: after := congrArg (x :: ·) h
      refine .stopped h' ?_ he (by rw [hxs, hcons]; rfl)
      intro y hy
      rcases List.mem_cons.mp hy with rfl | hy
      · exact hx
      · exact hb y hy

/-- A fault of the first stretch stops the scan there. -/
theorem head {x : Stretch × Nat} {e : TagError} (he : d.fault? x = some e) :
    d.RunsAlong (x :: stretches) (d.handed? x).toList (.error e) := by
  have h : x :: stretches = [] ++ x :: stretches := rfl
  refine .stopped h nofun he ?_
  rw [List.nil_append, List.filterMap_cons]
  cases d.handed? x <;> rfl

end RunsAlong

theorem follow_runsAlong (d : Document) (s : Scan) (stretches : List Stretch) :
    ∃ xs, (d.follow s stretches).1.dispatches = s.dispatches ++ xs ∧
      d.RunsAlong (stretches.zipIdx s.segments.length) xs (d.follow s stretches).2 := by
  -- one stretch after another; each of them becomes the segment of its number
  induction stretches generalizing s with
  | nil => exact ⟨[], (List.append_nil _).symm, .whole nofun rfl⟩
  | cons stretch stretches ih =>
      have hadd (p : Piece) : (s.add p).segments.length = s.segments.length + 1 := by
        unfold Scan.add
        rw [List.length_append, List.length_singleton]
      rw [List.zipIdx_cons]
      cases stretch with
      | literal text =>
          obtain ⟨xs, hxs, hr⟩ := ih (s.add (.literal text))
          rw [hadd] at hr
          refine ⟨xs, ?_, hr.cons (x := (.literal text, _)) rfl⟩
          rw [follow, hxs]
          simp [Scan.add, Piece.dispatch?]
      | malformed e => exact ⟨[], (List.append_nil _).symm, .head (x := (.malformed e, _)) rfl⟩
      | command tag =>
          cases hx : (d.handed tag s.segments.length).reply.result with
          | ok a =>
              obtain ⟨replacement, left⟩ := a
              have hfault : d.fault? (.command tag, s.segments.length) = none := by
                show Dispatch.error? _ = none
                unfold Dispatch.error?
                rw [hx]
              obtain ⟨xs, hxs, hr⟩ := ih (s.add (.command (d.handed tag _) replacement left))
              rw [hadd] at hr
              rw [follow_of_ok hx]
              refine ⟨d.handed tag _ :: xs, ?_, hr.cons hfault⟩
              rw [hxs]
              simp [Scan.add, Piece.dispatch?]
          | error e =>
              have hfault : d.fault? (.command tag, s.segments.length) = some e :=
                Dispatch.error?_eq_some.mpr hx
              rw [follow_of_error hx]
              exact ⟨[d.handed tag _], rfl, .head hfault⟩

/-- The tag that is next is handed over, whatever comes of it. -/
theorem follow_command_dispatches (d : Document) (s : Scan) (tag : Tag) (rest : List Stretch) :
    ∃ after, (d.follow s (.command tag :: rest)).1.dispatches =
      s.dispatches ++ d.handed tag s.segments.length :: after := by
  cases hx : (d.handed tag s.segments.length).reply.result with
  | ok a =>
      obtain ⟨replacement, left⟩ := a
      obtain ⟨after, ha, -⟩ := d.follow_runsAlong
        (s.add (.command (d.handed tag s.segments.length) replacement left)) rest
      rw [follow_of_ok hx, ha]
      exact ⟨after, List.append_assoc _ _ _⟩
  | error e =>
      rw [follow_of_error hx]
      exact ⟨[], rfl⟩

/-- The stretches of the source of a document, numbered as the segments are. -/
def outline (d : Document) : List (Stretch × Nat) :=
  (d.registry.markers.outline d.source).zipIdx

theorem scan_runsAlong (d : Document) : d.RunsAlong d.outline d.scan.1.dispatches d.scan.2 := by
  obtain ⟨xs, hxs, hr⟩ := d.follow_runsAlong {} (d.registry.markers.outline d.source)
  rw [scan_eq_follow, hxs]
  exact hr

theorem RunsAlong.exists_mem {stretches : List (Stretch × Nat)} {xs : List Dispatch}
    {r : Except TagError Unit} (h : d.RunsAlong stretches xs r) {x : Dispatch} (hx : x ∈ xs) :
    ∃ slot, (.command x.tag, slot) ∈ stretches ∧ x = d.handed x.tag slot := by
  have hmem : ∃ y ∈ stretches, d.handed? y = some x := by
    cases h with
    | whole h hxs => exact List.mem_filterMap.mp (hxs ▸ hx)
    | @stopped before after z e h hb he hxs =>
        obtain ⟨y, hy, hyx⟩ := List.mem_filterMap.mp (hxs ▸ hx)
        refine ⟨y, ?_, hyx⟩
        rw [h, List.append_cons]
        exact List.mem_append_left after hy
  obtain ⟨⟨stretch, slot⟩, hy, hyx⟩ := hmem
  cases stretch with
  | command tag =>
      obtain rfl := Option.some.inj hyx
      exact ⟨slot, hy, rfl⟩
  | _ => cases hyx

/-- A scan that fails has come to a stretch with a fault; if it is a tag, it was handed over. -/
theorem RunsAlong.exists_fault {stretches : List (Stretch × Nat)} {xs : List Dispatch}
    {e : TagError} (h : d.RunsAlong stretches xs (.error e)) :
    ∃ x ∈ stretches, d.fault? x = some e ∧ ∀ y ∈ d.handed? x, y ∈ xs := by
  cases h with
  | @stopped before after x _ h hb he hxs =>
      refine ⟨x, h ▸ List.mem_append_right _ List.mem_cons_self, he, fun y hy => ?_⟩
      rw [hxs]
      exact List.mem_filterMap.mpr ⟨x, List.mem_append_right _ List.mem_cons_self, hy⟩

theorem found_of_mem_outline {x : Stretch} {slot : Nat} (h : (x, slot) ∈ d.outline) :
    d.registry.markers.Found d.source.toList x :=
  Markers.found_of_mem_outlineFrom (List.fst_mem_of_mem_zipIdx h)

/-! ## Two scans of one source -/

/-- What a handler is told of a stretch, apart from the document. -/
def told? : Stretch × Nat → Option (Tag × Position × Nat)
  | (.command tag, slot) => some (tag, tag.position, slot)
  | _ => none

end Document

/-- The tag that was handed over, with its place: the position and the number of its segment. -/
def Dispatch.told (x : Dispatch) : Tag × Position × Nat :=
  (x.tag, x.cursor.position, x.cursor.segment)

namespace Document

/-- The tags handed over are those of some first stretches, and of all if nothing stops the scan. -/
theorem RunsAlong.exists_told {d : Document} {stretches : List (Stretch × Nat)}
    {xs : List Dispatch} {r : Except TagError Unit} (h : d.RunsAlong stretches xs r) :
    ∃ first, first <+: stretches ∧ xs.map Dispatch.told = first.filterMap told? ∧
      (r = .ok () → first = stretches) := by
  have htold (l : List (Stretch × Nat)) :
      (l.filterMap d.handed?).map Dispatch.told = l.filterMap told? := by
    rw [List.map_filterMap]
    congr 1
    funext ⟨stretch, slot⟩
    cases stretch <;> rfl
  cases h with
  | whole h hx => exact ⟨stretches, List.prefix_rfl, by rw [hx, htold], fun _ => rfl⟩
  | @stopped before after x e h hb he hx =>
      refine ⟨before ++ [x], ⟨after, ?_⟩, by rw [hx, htold], nofun⟩
      rw [h, List.append_assoc]
      rfl

/-- Whether the tags that a document hands over are the first ones of those that another one hands
over, and the document stops with an error unless they are all of them. -/
structure Precedes (d d' : Document) : Prop where
  tags : d.scan.1.dispatches.map Dispatch.told <+: d'.scan.1.dispatches.map Dispatch.told
  stopped : d.scan.1.dispatches.map Dispatch.told ≠ d'.scan.1.dispatches.map Dispatch.told →
    ∃ e, d.tokenize.2.2 = .error (.tag e)

theorem tokenize_of_source {d : Document} (h : d.phase = .hasSourceText) :
    d.tokenize.2.2 = d.scan.2.mapError .tag := by
  unfold tokenize
  rw [h]
  dsimp only
  split
  · rename_i s hs
    rw [hs]
    rfl
  · rename_i s e hs
    rw [hs]
    rfl

/-- One of two scans of the same stretches goes at least as far as the other. -/
theorem precedes_of_told {d d' : Document} (hp : d.phase = .hasSourceText)
    {first first' : List (Stretch × Nat)} (h : first <+: first')
    (hd : d.scan.1.dispatches.map Dispatch.told = first.filterMap told?)
    (hd' : d'.scan.1.dispatches.map Dispatch.told = first'.filterMap told?)
    (hok : d.scan.2 = .ok () → first = first') : d.Precedes d' where
  tags := by
    rw [hd, hd']
    exact h.filterMap _
  stopped hne := by
    cases hr : d.scan.2 with
    | ok u =>
        rw [hd, hd', hok hr] at hne
        exact absurd rfl hne
    | error e =>
        rw [tokenize_of_source hp, hr]
        exact ⟨e, rfl⟩

/-- **Handlers do not choose the tags.** Let two documents have one source and the same markers, and
differ in all else: handlers, aliases, variables and options. The tags that they hand over, each
with its position and the number of its segment, are the same, up to where the first of them stops
with an error. And each of them stops just at the leftmost tag that is malformed or whose handlers
fail, after which no other tag is handed over. -/
theorem tags_agree {d d' : Document} (hs : d.source = d'.source)
    (hm : d.registry.markers = d'.registry.markers) (hp : d.phase = .hasSourceText)
    (hp' : d'.phase = .hasSourceText) : (d.Precedes d' ∨ d'.Precedes d) ∧
      ∀ x ∈ [d, d'], x.RunsAlong d.outline x.scan.1.dispatches x.scan.2 ∧
        x.tokenize.2.2 = x.scan.2.mapError .tag := by
  have ho : d'.outline = d.outline := by
    unfold outline
    rw [hs, hm]
  have hd := d.scan_runsAlong
  have hd' := d'.scan_runsAlong
  rw [ho] at hd'
  constructor
  · obtain ⟨first, hpre, htold, hall⟩ := hd.exists_told
    obtain ⟨first', hpre', htold', hall'⟩ := hd'.exists_told
    -- a scan that is not stopped has gone at least as far as the other
    rcases List.prefix_or_prefix_of_prefix hpre hpre' with h | h
    · refine .inl (precedes_of_told hp h htold htold' fun hok => ?_)
      exact (h.eq_of_length_le (by rw [hall hok]; exact hpre'.length_le))
    · refine .inr (precedes_of_told hp' h htold' htold fun hok => ?_)
      exact (h.eq_of_length_le (by rw [hall' hok]; exact hpre.length_le))
  · intro x hx
    rcases List.mem_cons.mp hx with rfl | hx
    · exact ⟨hd, tokenize_of_source hp⟩
    · obtain rfl := List.mem_singleton.mp hx
      exact ⟨hd', tokenize_of_source hp'⟩

/-- A document of two tags, of which the first one is refused. -/
def refusing : Document where
  source := "<a><b>"
  phase := .hasSourceText
  registry := Registry.unmarked.insert "<a" (.handler fun _ tag _ => .fail (tag.error "refused"))

/-- The same source, for handlers that put a text like a tag in the place of every tag. -/
def smuggling : Document where
  source := "<a><b>"
  phase := .hasSourceText
  registry := Registry.unmarked.insert Key.other (.handler fun _ tag _ => .pure (.text "<c>", tag))
  bindings := [("x", "<d>")]

theorem unmarked_outline : Registry.unmarked.markers.outline "<a><b>" =
    [.command ⟨"a", none, [], ⟨1, 1⟩, "<a>"⟩, .command ⟨"b", none, [], ⟨1, 4⟩, "<b>"⟩] := by
  have ha : Registry.unmarked.markers.recognise .start "a><b>".toList =
      .ok (.command ⟨"a", none, [], ⟨1, 1⟩, "<a>"⟩ "<b>".toList) :=
    Markers.recognise_eq_command.mpr
      ⟨['a'], ['a'], none, [], rfl, rfl, by decide, rfl, attributesFrom_nil [], rfl⟩
  have hb : Registry.unmarked.markers.recognise ⟨1, 4⟩ "b>".toList =
      .ok (.command ⟨"b", none, [], ⟨1, 4⟩, "<b>"⟩ []) :=
    Markers.recognise_eq_command.mpr
      ⟨['b'], ['b'], none, [], rfl, rfl, by decide, rfl, attributesFrom_nil [], rfl⟩
  rw [Markers.outline]
  exact (Markers.outlineFrom_command ha []).trans
    (congrArg (_ :: ·) ((Markers.outlineFrom_command hb []).trans
      (congrArg (_ :: ·) (Markers.outlineFrom_nil _ _ _))))

/-- The refused tag is the last one that is handed over. The others are the two of the source. -/
theorem refusing_precedes_smuggling : refusing.Precedes smuggling ∧
    smuggling.scan.1.dispatches.map Dispatch.told =
      [(⟨"a", none, [], ⟨1, 1⟩, "<a>"⟩, ⟨1, 1⟩, 0), (⟨"b", none, [], ⟨1, 4⟩, "<b>"⟩, ⟨1, 4⟩, 1)] ∧
    smuggling.scan.1.segments = [.text "<c>", .text "<c>"] := by
  have hr : refusing.scan = refusing.follow {} _ :=
    refusing.scan_eq_follow.trans (congrArg _ unmarked_outline)
  have hs : smuggling.scan = smuggling.follow {} _ :=
    smuggling.scan_eq_follow.trans (congrArg _ unmarked_outline)
  have hlonger : ¬ smuggling.Precedes refusing := by
    intro h
    have hl := h.tags.length_le
    rw [hr, hs] at hl
    exact absurd hl (by decide)
  refine ⟨?_, by rw [hs]; rfl, by rw [hs]; rfl⟩
  exact (@tags_agree refusing smuggling rfl rfl rfl rfl).1.resolve_right hlonger

end Document

end Inlay
