import Mathlib.Data.List.Chain
import Inlay.Proofs.Markup.Offsets
import Inlay.Proofs.Source.Pieces

set_option autoImplicit false

/-! # The search through a source

The scan of a source as a loop over byte offsets. Each round looks for the next `<` from the offset
that the search has come to, moves a tracker of lines and columns there, and goes on behind what
stands at it (`Document.round`). Where a search stands is given by the texts that are handled,
passed and ahead (`Standpoint`). From there a round cuts nothing astray, and comes to the end or to
another standpoint further on (`round_cases`). By induction on the text ahead, every source is gone
through in finitely many rounds, and what they come to is its scan (`scan_rounds`).
-/

namespace Inlay

/-! ## The loop -/

/-- A byte offset, and the position of the character there. -/
structure Tracker where
  offset : Nat := 0
  position : Position := .start

/-- Move a tracker to an offset that is not before its own. -/
def Tracker.advance {ε : Type} (t : Tracker) (text : List Char) (offset : Nat) :
    Reading ε Tracker := do
  let between ← part text t.offset offset
  return ⟨offset, t.position.after between⟩

/-- Where a search has come to: what it has made of the source, and the offsets at which the literal
text begins that is not a segment yet and at which the next `<` is looked for. -/
structure Search where
  scan : Scan := {}
  tracker : Tracker := {}
  literalFrom : Nat := 0
  searchFrom : Nat := 0

/-- How a round ends: with a search that goes on, or with the result. -/
inductive Round where
  | again (next : Search)
  | over (result : Scan × Except TagError Unit)

/-- Add the segment of the literal text between two offsets, if there is any text. -/
def Scan.literalAt {ε : Type} (s : Scan) (source : List Char) (start stop : Nat) :
    Reading ε Scan :=
  if start < stop then do
    let text ← part source start stop
    return s.literal text
  else return s

namespace Document

/-- Go on behind what the `<` begins that the tracker has come to. -/
def proceed (d : Document) (l : Search) (tracker : Tracker) : Match → Reading Empty Round
  | .noTag => .ok (.again { l with tracker, searchFrom := tracker.offset + 1 })
  | .markup length => .ok (.again { l with tracker, searchFrom := tracker.offset + length })
  | .command tag length => do
    let scan ← l.scan.literalAt d.source.toList l.literalFrom tracker.offset
    match d.handleTag scan tag with
    | (scan, .error e) => return .over (scan, .error e)
    | (scan, .ok ()) =>
      let behind := tracker.offset + length
      return .again { scan, tracker, literalFrom := behind, searchFrom := behind }

/-- One round of the search through the source. A tag that is refused is its result; nothing else is
refused. -/
def round (d : Document) (l : Search) : Reading Empty Round := do
  let source := d.source.toList
  let (_, ahead) ← cut source l.searchFrom
  match offsetOf? (· == '<') ahead with
  | none =>
    let scan ← l.scan.literalAt source l.literalFrom (byteLength source)
    return .over (scan, .ok ())
  | some found =>
    let tracker ← l.tracker.advance source (l.searchFrom + found)
    let (_, input) ← cut source tracker.offset
    match ← (d.registry.markers.matchAt tracker.position input).caught with
    | .error e => return .over (l.scan, .error e)
    | .ok found => d.proceed l tracker found

end Document

/-- The searches of the rounds up to the last one, and the result of that. -/
inductive Rounds (d : Document) : List Search → Scan × Except TagError Unit → Prop where
  | last {l : Search} {result : Scan × Except TagError Unit} :
    d.round l = .ok (.over result) → Rounds d [l] result
  | again {l l' : Search} {rounds : List Search} {result : Scan × Except TagError Unit} :
    d.round l = .ok (.again l') → Rounds d (l' :: rounds) result →
      Rounds d (l :: l' :: rounds) result

/-- Where a search begins settles its rounds and their result. -/
theorem Rounds.unique {d : Document} {l : Search} {rounds rounds' : List Search}
    {result result' : Scan × Except TagError Unit} (h : Rounds d (l :: rounds) result)
    (h' : Rounds d (l :: rounds') result') : rounds = rounds' ∧ result = result' := by
  -- a search has one round, so both runs go on alike
  induction rounds generalizing l rounds' with
  | nil =>
      cases h with
      | last hl =>
          cases h' with
          | last hl' =>
              rw [hl] at hl'
              cases hl'
              exact ⟨rfl, rfl⟩
          | again hl' _ =>
              rw [hl] at hl'
              cases hl'
  | cons l₁ rounds ih =>
      cases h with
      | again hl ht =>
          cases h' with
          | last hl' =>
              rw [hl] at hl'
              cases hl'
          | again hl' ht' =>
              rw [hl] at hl'
              cases hl'
              obtain ⟨rfl, rfl⟩ := ih ht ht'
              exact ⟨rfl, rfl⟩

/-! ## Standpoints -/

/-- The tracker at the end of a text. -/
def Tracker.behind (text : List Char) : Tracker := ⟨byteLength text, Position.start.after text⟩

/-- Where a search stands: the text `done` is handled, the text `passed` behind it is literal text
so far, and the text `ahead` is not read. The tracker was last moved to the end of `tracked`. -/
structure Standpoint where
  scan : Scan
  tracked : List Char
  done : List Char
  passed : List Char
  ahead : List Char
  tracked_prefix : tracked <+: done ++ passed

/-- Whether a search is before another one, and its tracker not behind that of the other. -/
def Search.Before (l l' : Search) : Prop :=
  l.searchFrom < l'.searchFrom ∧ l.tracker.offset ≤ l'.tracker.offset

instance : IsTrans Search Search.Before where
  trans _ _ _ h h' := ⟨Nat.lt_trans h.1 h'.1, Nat.le_trans h.2 h'.2⟩

namespace Standpoint

variable {ε : Type} (p : Standpoint) {run written rest : List Char}

/-- The whole source. -/
def source : List Char := p.done ++ p.passed ++ p.ahead

/-- The search at a standpoint. -/
def search : Search where
  scan := p.scan
  tracker := .behind p.tracked
  literalFrom := byteLength p.done
  searchFrom := byteLength (p.done ++ p.passed)

/-- The source up to the end of a text that stands ahead. -/
def upTo (run : List Char) : List Char := p.done ++ (p.passed ++ run)

theorem source_eq (h : p.ahead = run ++ rest) : p.source = p.upTo run ++ rest := by
  unfold source upTo
  rw [h, List.append_assoc, List.append_assoc, List.append_assoc]

theorem byteLength_upTo (run : List Char) :
    byteLength (p.upTo run) = byteLength (p.done ++ p.passed) + byteLength run := by
  unfold upTo
  rw [← byteLength_append, List.append_assoc]

theorem tracked_prefix_upTo (run : List Char) : p.tracked <+: p.upTo run := by
  unfold upTo
  rw [← List.append_assoc]
  exact p.tracked_prefix.trans (List.prefix_append _ _)

/-- Behind a tag that is passed over, with the text before and behind it. -/
def pass (run written rest : List Char) : Standpoint where
  scan := p.scan
  tracked := p.upTo run
  done := p.done
  passed := p.passed ++ run ++ written
  ahead := rest
  tracked_prefix := ⟨written, List.append_assoc _ _ _⟩

/-- Behind a tag that is handled, with what the scan has come to by it. -/
def handle (s : Scan) (run written rest : List Char) : Standpoint where
  scan := s
  tracked := p.upTo run
  done := p.upTo run ++ written
  passed := []
  ahead := rest
  tracked_prefix := ⟨written, (List.append_nil _).symm⟩

/-- Whether a standpoint is further on in the same source. -/
structure Further (p p' : Standpoint) : Prop where
  source : p'.source = p.source
  tracked : p.tracked <+: p'.tracked
  ahead : ∃ extra, extra ≠ [] ∧ p.ahead = extra ++ p'.ahead

theorem further_pass (h : p.ahead = run ++ (written ++ rest)) (hw : written ≠ []) :
    p.Further (p.pass run written rest) where
  source := by
    rw [p.source_eq h]
    unfold source pass upTo
    simp only [List.append_assoc]
  tracked := p.tracked_prefix_upTo run
  ahead := ⟨run ++ written, by simp [hw], by rw [h, List.append_assoc]; rfl⟩

theorem further_handle (s : Scan) (h : p.ahead = run ++ (written ++ rest)) (hw : written ≠ []) :
    p.Further (p.handle s run written rest) where
  source := by
    rw [p.source_eq h]
    unfold source handle
    rw [List.append_nil, List.append_assoc]
  tracked := p.tracked_prefix_upTo run
  ahead := ⟨run ++ written, by simp [hw], by rw [h, List.append_assoc]; rfl⟩

theorem Further.length_lt {p p' : Standpoint} (h : p.Further p') :
    p'.ahead.length < p.ahead.length := by
  obtain ⟨extra, hextra, hahead⟩ := h.ahead
  have hpos := List.length_pos_iff.mpr hextra
  rw [hahead, List.length_append]
  omega

theorem Further.before {p p' : Standpoint} (h : p.Further p') : p.search.Before p'.search := by
  obtain ⟨extra, hextra, hahead⟩ := h.ahead
  obtain ⟨between, hbetween⟩ := h.tracked
  have hpos := Nat.pos_of_ne_zero (mt byteLength_eq_zero.mp hextra)
  have hlengths := congrArg byteLength h.source
  unfold Standpoint.source at hlengths
  rw [hahead, byteLength_append _ p'.ahead, byteLength_append _ (extra ++ _),
    byteLength_append extra] at hlengths
  constructor
  · show byteLength (p.done ++ p.passed) < byteLength (p'.done ++ p'.passed)
    omega
  · show byteLength p.tracked ≤ byteLength p'.tracked
    rw [← hbetween, byteLength_append]
    omega

/-! ### Cuts at a standpoint -/

theorem cut_searchFrom : cut p.source p.search.searchFrom =
    (.ok (p.done ++ p.passed, p.ahead) : Reading ε (List Char × List Char)) :=
  cut_append _ _

theorem advance_upTo (h : p.ahead = run ++ rest) :
    p.search.tracker.advance p.source (p.search.searchFrom + byteLength run) =
      (.ok (.behind (p.upTo run)) : Reading ε Tracker) := by
  obtain ⟨between, hbetween⟩ := p.tracked_prefix_upTo run
  have hpart : part p.source (byteLength p.tracked) (byteLength (p.upTo run)) =
      (.ok between : Reading ε (List Char)) := by
    rw [p.source_eq h, ← hbetween]
    exact part_append _ _ _
  unfold Tracker.advance search Tracker.behind
  dsimp only
  rw [← byteLength_upTo, hpart]
  show Except.ok (Tracker.mk _ _) = _
  rw [← Position.after_append, hbetween]

theorem literalAt_upTo (h : p.ahead = run ++ rest) :
    p.search.scan.literalAt p.source p.search.literalFrom (byteLength (p.upTo run)) =
      (.ok (p.scan.literal (p.passed ++ run)) : Reading ε Scan) := by
  rw [p.source_eq h]
  unfold Scan.literalAt search upTo
  dsimp only
  by_cases hempty : p.passed ++ run = []
  · rw [hempty, List.append_nil, if_neg (Nat.lt_irrefl _)]
    rfl
  · have hpos := Nat.pos_of_ne_zero (mt byteLength_eq_zero.mp hempty)
    rw [part_append, byteLength_append, if_pos (Nat.lt_add_of_pos_right hpos)]
    rfl

end Standpoint

namespace Document

variable {d : Document} {p : Standpoint} {run text rest : List Char}

/-! ## One round -/

/-- Without a `<` ahead the round is the last one. -/
theorem round_last (hsource : d.source.toList = p.source)
    (hahead : ∀ c ∈ p.ahead, (c == '<') = false) :
    d.round p.search = .ok (.over (p.scan.literal (p.passed ++ p.ahead), .ok ())) := by
  have hnothing : p.ahead = p.ahead ++ [] := (List.append_nil _).symm
  have hend : p.upTo p.ahead = p.source := by rw [p.source_eq hnothing, List.append_nil]
  have hrest := p.literalAt_upTo (ε := Empty) hnothing
  rw [hend] at hrest
  unfold round
  dsimp only
  rw [hsource, p.cut_searchFrom]
  show (match offsetOf? (· == '<') p.ahead with | none => _ | some found => _) = _
  rw [offsetOf?_eq_none hahead]
  dsimp only
  rw [hrest]
  rfl

/-- At the next `<` a round goes on as what stands there requires. -/
theorem round_bracket (hsource : d.source.toList = p.source) (h : p.ahead = run ++ '<' :: text)
    (hrun : ∀ c ∈ run, (c == '<') = false) :
    d.round p.search =
      match d.registry.markers.recognise (Position.start.after (p.upTo run)) text with
      | .error e => .ok (.over (p.scan, .error e))
      | .ok candidate => d.proceed p.search (.behind (p.upTo run)) candidate.measured := by
  have hinput : cut p.source (Tracker.behind (p.upTo run)).offset =
      (.ok (p.upTo run, '<' :: text) : Reading Empty _) := by
    rw [p.source_eq h]
    exact cut_append _ _
  unfold round
  dsimp only
  rw [hsource, p.cut_searchFrom]
  show (match offsetOf? (· == '<') p.ahead with | none => _ | some found => _) = _
  rw [h, offsetOf?_append hrun (beq_self_eq_true '<')]
  dsimp only
  rw [p.advance_upTo h]
  show (cut p.source (Tracker.behind (p.upTo run)).offset >>= _) = _
  rw [hinput]
  show ((d.registry.markers.matchAt (Position.start.after (p.upTo run)) ('<' :: text)).caught
    >>= _) = _
  rw [Markers.matchAt_eq, Reading.caught_ofResult]
  cases d.registry.markers.recognise (Position.start.after (p.upTo run)) text <;> rfl

/-- A bracket that begins no tag is passed over. -/
theorem proceed_noTag : d.proceed p.search (.behind (p.upTo run)) .noTag =
    .ok (.again (p.pass run ['<'] text).search) := by
  have hone : byteLength (p.upTo run) + 1 = byteLength (p.done ++ (p.passed ++ run ++ ['<'])) := by
    rw [← List.append_assoc p.done (p.passed ++ run), byteLength_append _ ['<'],
      byteLength_singleton]
    rfl
  unfold proceed
  dsimp only [Standpoint.search, Standpoint.pass, Tracker.behind]
  rw [hone]

/-- Markup is passed over. -/
theorem proceed_markup (written : List Char) :
    d.proceed p.search (.behind (p.upTo run)) (.markup (byteLength written)) =
      .ok (.again (p.pass run written text).search) := by
  unfold proceed
  dsimp only [Standpoint.search, Standpoint.pass, Tracker.behind, Standpoint.upTo]
  rw [← byteLength_append, List.append_assoc]

/-- A tag that is handled ends the literal text. -/
theorem proceed_command (hsource : d.source.toList = p.source) (h : p.ahead = run ++ text)
    (tag : Tag) (rest : List Char) :
    d.proceed p.search (.behind (p.upTo run)) (.command tag (byteLength tag.source.toList)) =
      match d.handleTag (p.scan.literal (p.passed ++ run)) tag with
      | (s, .error e) => .ok (.over (s, .error e))
      | (s, .ok ()) => .ok (.again (p.handle s run tag.source.toList rest).search) := by
  unfold proceed
  dsimp only
  rw [hsource]
  show (p.search.scan.literalAt p.source p.search.literalFrom (byteLength (p.upTo run)) >>= _) = _
  rw [p.literalAt_upTo h]
  show (match d.handleTag _ _ with | (scan, .error e) => _ | (scan, .ok ()) => _) = _
  dsimp only [Standpoint.search, Standpoint.handle, Tracker.behind]
  rw [← byteLength_append, List.append_nil]
  split <;> rfl

/-! ## What the scan comes to -/

/-- Text without a `<` is passed over. -/
theorem scanFrom_run {s : Scan} (position : Position) (passed : List Char)
    (hrun : ∀ c ∈ run, (c == '<') = false) (text : List Char) :
    d.scanFrom s position passed (run ++ text) =
      d.scanFrom s (position.after run) (run.reverse ++ passed) text := by
  induction run generalizing position passed with
  | nil => rfl
  | cons c run ih =>
      have hc : c ≠ '<' := by simpa using hrun c List.mem_cons_self
      rw [List.cons_append, scanFrom_cons d s passed hc,
        ih _ _ fun x hx => hrun x (List.mem_cons_of_mem _ hx), List.reverse_cons,
        List.append_assoc]
      rfl

/-- What the scan comes to from a standpoint. -/
def outcome (d : Document) (p : Standpoint) : Scan × Except TagError Unit :=
  d.scanFrom p.scan (Position.start.after (p.done ++ p.passed)) p.passed.reverse p.ahead

theorem outcome_upTo (h : p.ahead = run ++ rest) (hrun : ∀ c ∈ run, (c == '<') = false) :
    d.outcome p =
      d.scanFrom p.scan (Position.start.after (p.upTo run)) (p.passed ++ run).reverse rest := by
  unfold outcome Standpoint.upTo
  rw [h, scanFrom_run _ _ hrun, ← Position.after_append, List.append_assoc, List.reverse_append]

theorem outcome_last (hahead : ∀ c ∈ p.ahead, (c == '<') = false) :
    d.outcome p = (p.scan.literal (p.passed ++ p.ahead), .ok ()) := by
  rw [outcome_upTo (List.append_nil _).symm hahead, scanFrom_nil, List.reverse_reverse]

theorem outcome_pass (run written rest : List Char) :
    d.outcome (p.pass run written rest) =
      d.scanFrom p.scan ((Position.start.after (p.upTo run)).after written)
        (written.reverse ++ (p.passed ++ run).reverse) rest := by
  show d.scanFrom p.scan (Position.start.after (p.done ++ (p.passed ++ run ++ written)))
    (p.passed ++ run ++ written).reverse rest = _
  unfold Standpoint.upTo
  rw [← Position.after_append, ← List.reverse_append, List.append_assoc p.done]

theorem outcome_handle (s : Scan) (run written rest : List Char) :
    d.outcome (p.handle s run written rest) =
      d.scanFrom s ((Position.start.after (p.upTo run)).after written) [] rest := by
  unfold outcome Standpoint.handle
  rw [← Position.after_append, List.append_nil, List.reverse_nil]

/-! ## All rounds -/

/-- A round comes to the end with what the scan comes to, or to a standpoint further on from which
the scan comes to the same. -/
theorem round_cases (hsource : d.source.toList = p.source) :
    d.round p.search = .ok (.over (d.outcome p)) ∨
      ∃ p', p.Further p' ∧ d.round p.search = .ok (.again p'.search) ∧
        d.outcome p' = d.outcome p := by
  rcases first_cases (· == '<') p.ahead with hahead | ⟨run, c, text, hahead, hrun, hc⟩
  · left
    rw [round_last hsource hahead, outcome_last hahead]
  · obtain rfl : c = '<' := eq_of_beq hc
    rw [round_bracket hsource hahead hrun, outcome_upTo hahead hrun]
    -- both sides go by what the bracket begins
    cases hr : d.registry.markers.recognise (Position.start.after (p.upTo run)) text with
    | error e =>
        left
        rw [scanFrom_malformed d _ _ hr]
    | ok candidate =>
        cases candidate with
        | noTag =>
            refine .inr ⟨p.pass run ['<'] text, p.further_pass hahead (List.cons_ne_nil _ _),
              proceed_noTag, ?_⟩
            rw [scanFrom_noTag d _ _ hr]
            exact outcome_pass _ _ _
        | markup body rest =>
            have hwritten : p.ahead = run ++ (('<' :: body ++ ['>']) ++ rest) := by
              rw [hahead, Markers.recognise_markup hr]
              simp
            refine .inr ⟨p.pass run ('<' :: body ++ ['>']) rest,
              p.further_pass hwritten (List.cons_ne_nil _ _), proceed_markup _, ?_⟩
            rw [scanFrom_markup d _ _ hr]
            exact outcome_pass _ _ _
        | command tag rest =>
            obtain ⟨body, htag, htext, -⟩ := Markers.recognise_command hr
            have hwritten : p.ahead = run ++ (tag.source.toList ++ rest) := by
              rw [hahead, htag, htext]
              simp
            have hne : tag.source.toList ≠ [] := by
              rw [htag]
              exact List.cons_ne_nil _ _
            rw [scanFrom_command d _ _ hr, List.reverse_reverse]
            show d.proceed p.search _ (.command tag _) = _ ∨
              ∃ p', p.Further p' ∧ d.proceed p.search _ (.command tag _) = _ ∧ _
            rw [proceed_command hsource hahead tag rest]
            rcases d.handleTag (p.scan.literal (p.passed ++ run)) tag with ⟨s, ⟨e⟩ | ⟨⟨⟩⟩⟩
            · exact .inl rfl
            · exact .inr ⟨p.handle s run tag.source.toList rest, p.further_handle s hwritten hne,
                rfl, outcome_handle _ _ _ _⟩

/-- From wherever a search stands, the rounds that follow come to what the scan comes to. -/
theorem rounds_from (hsource : d.source.toList = p.source) :
    ∃ rounds, Rounds d (p.search :: rounds) (d.outcome p) ∧
      (p.search :: rounds).IsChain Search.Before := by
  -- each round leaves less of the text ahead
  induction hn : p.ahead.length using Nat.strong_induction_on generalizing p with
  | _ n ih =>
    subst hn
    rcases round_cases hsource with hover | ⟨p', hfurther, hagain, houtcome⟩
    · exact ⟨[], .last hover, List.isChain_singleton _⟩
    · obtain ⟨rounds, hrounds, hchain⟩ :=
        ih _ hfurther.length_lt (hsource.trans hfurther.source.symm) rfl
      rw [houtcome] at hrounds
      exact ⟨p'.search :: rounds, .again hagain hrounds,
        List.isChain_cons_cons.mpr ⟨hfurther.before, hchain⟩⟩

/-- **A search cuts nothing astray and always goes on.** Whatever the source and the markers are,
the rounds of the search come to an end, and no cut in any of them goes astray: not in the source,
not in the tags found there, and not in their names, keys and values. From each round to the next
the offset from which is searched grows, and the offset of the tracker does not fall. The result is
that of the scan. There are no other rounds. -/
theorem scan_rounds (d : Document) :
    ∃ rounds, Rounds d ({} :: rounds) d.scan ∧ ({} :: rounds).Pairwise Search.Before ∧
      ∀ others result, Rounds d ({} :: others) result → others = rounds ∧ result = d.scan := by
  let start : Standpoint := ⟨{}, [], [], [], d.source.toList, List.prefix_refl []⟩
  have hstart : start.search = {} := by
    show Search.mk {} ⟨byteLength [], Position.start⟩ (byteLength []) (byteLength []) = {}
    rw [byteLength_nil]
  obtain ⟨rounds, hrounds, hchain⟩ := rounds_from (p := start) rfl
  rw [hstart] at hrounds hchain
  exact ⟨rounds, hrounds, List.isChain_iff_pairwise.mp hchain, fun _ _ h => h.unique hrounds⟩

end Document

end Inlay
