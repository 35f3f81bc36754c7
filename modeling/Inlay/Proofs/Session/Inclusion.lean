import Inlay.Proofs.Files.Encoding
import Inlay.Proofs.Inserts.Promptness
import Inlay.Proofs.Session.Completion
import Inlay.Proofs.Session.Revision
import Inlay.Proofs.Source.Page

set_option autoImplicit false

/-! # Renderings of pages

To render a page is to put the text of each include in its place (`render_includes`), just as it is:
the texts are loaded after the scan, and no scan sees them. All of them are there at once, so no
limit of time plays a part unless it is zero. An include without a text fails its own segment, and
then all such segments are reported, each by its number, and there is no text.
-/

namespace Inlay

/-- What an include of a document comes to, if texts are loaded from a table. -/
def Include.found (x : Include) (d : Document) (sources : Sources) : Delivered :=
  match sources.find? (x.path d) with
  | some text => .ok text
  | none => .error (.failed (LoadError.noSuchSource (x.path d)).message)

theorem Include.found_error {x : Include} {d : Document} {sources : Sources} :
    (∃ e, x.found d sources = .error e) ↔ sources.find? (x.path d) = none := by
  unfold found
  cases sources.find? (x.path d) with
  | some text => simp
  | none => simp

theorem Include.fetch_prompt (x : Include) (d : Document) : (x.fetch d).Prompt :=
  ⟨⟨x.path d, d.options.encoding, rfl⟩, rfl, rfl⟩

/-- The segment of a part when its include is settled. -/
def Page.Part.settled (d : Document) (sources : Sources) : Page.Part → Segment
  | .text s => .text s
  | .insert x => .ofResult (x.found d sources)

/-! ## The includes are fetched -/

namespace Document

/-- Whether a document is a page that was scanned, with its includes to be loaded from a table
within some time. -/
structure LaidOut (d : Document) (sources : Sources) (parts : List Page.Part) : Prop where
  tokenized : d.Tokenized
  segments : d.segments = parts.map Page.Part.segment
  pending : ∀ i : Nat,
    (d.pending[i]?).map PendingInsert.fetch = parts[i]?.bind (Page.Part.fetch? d)
  loader : d.loader = sources.loader
  timeout : d.options.timeout ≠ some 0

namespace LaidOut

variable {d : Document} {sources : Sources} {parts : List Page.Part} (h : d.LaidOut sources parts)
include h

/-- The inserts that are pending are the includes. -/
theorem part_of_pending {i : Nat} {insert : PendingInsert} (hi : d.pending[i]? = some insert) :
    ∃ x, parts[i]? = some (.insert x) ∧ insert.fetch = x.fetch d := by
  have hp := h.pending i
  rw [hi, Option.map_some] at hp
  obtain ⟨part, hpart, hf⟩ := Option.bind_eq_some_iff.mp hp.symm
  cases part with
  | text s => cases hf
  | insert x => exact ⟨x, hpart, (Option.some.inj hf).symm⟩

theorem pending_of_part {i : Nat} {x : Include} (hi : parts[i]? = some (.insert x)) :
    ∃ insert, d.pending[i]? = some insert ∧ insert.fetch = x.fetch d := by
  have hp := h.pending i
  rw [hi] at hp
  obtain ⟨insert, hinsert, hf⟩ := Option.map_eq_some_iff.mp hp
  exact ⟨insert, hinsert, hf⟩

theorem not_pending {i : Nat} (hi : ∀ x, parts[i]? ≠ some (.insert x)) :
    d.pending[i]? = none := by
  cases hp : d.pending[i]? with
  | none => rfl
  | some insert =>
      obtain ⟨x, hx, -⟩ := h.part_of_pending hp
      exact absurd hx (hi x)

theorem delivery {insert : PendingInsert} {x : Include} (hf : insert.fetch = x.fetch d)
    (disk : Disk) : insert.delivery? (d.loader disk) = some (0, x.found d sources) := by
  unfold PendingInsert.delivery?
  rw [hf, h.loader]
  unfold Include.fetch Work.delivery? Sources.loader Include.found
  dsimp only
  cases sources.find? (x.path d) <;> rfl

/-- The includes are all there at once. -/
theorem prompt : d.Prompt where
  fetches i insert hi := by
    obtain ⟨x, -, hf⟩ := h.part_of_pending hi
    rw [hf]
    exact x.fetch_prompt d
  timeout := h.timeout

/-- An include is settled at once, before any limit of time. -/
theorem earliest {insert : PendingInsert} {x : Include} (hf : insert.fetch = x.fetch d)
    (disk : Disk) : insert.earliest? d.options.timeout (d.loader disk) =
      some (0, x.found d sources) := by
  have hp : insert.fetch.Prompt := hf ▸ x.fetch_prompt d
  obtain ⟨result, hd, he⟩ := PendingInsert.earliest_of_prompt hp h.timeout
  rw [h.delivery hf] at hd
  cases hd
  exact he

theorem outcome {i : Nat} {insert : PendingInsert} {x : Include}
    (hi : d.pending[i]? = some insert) (hx : parts[i]? = some (.insert x)) (disk : Disk) :
    insert.outcome? d.options.timeout (d.loader disk) = some (x.found d sources) := by
  obtain ⟨x', hx', hf⟩ := h.part_of_pending hi
  rw [hx] at hx'
  cases hx'
  unfold PendingInsert.outcome?
  rw [h.earliest hf, hf]
  unfold Include.fetch filtered
  cases x.found d sources <;> rfl

variable {disk : Disk} {d' : Document} (hd : d.Isolated disk d')
include hd

/-- When all is settled, each part has its own segment. -/
theorem settled_segments : d'.segments = parts.map (Page.Part.settled d sources) := by
  apply List.ext_getElem?
  intro i
  rw [List.getElem?_map]
  cases hi : parts[i]? with
  | none =>
      rw [hd.others i (h.not_pending (by simp [hi])), h.segments, List.getElem?_map, hi]
      rfl
  | some part =>
      cases part with
      | text s =>
          rw [hd.others i (h.not_pending (by simp [hi])), h.segments, List.getElem?_map, hi]
          rfl
      | insert x =>
          obtain ⟨insert, hinsert, hf⟩ := h.pending_of_part hi
          obtain ⟨outcome, ho, hs⟩ := hd.segments i insert hinsert
          rw [h.outcome hinsert hi] at ho
          cases ho
          exact hs

/-- The includes that have failed are those without a text. -/
theorem settled_failed (i : Nat) : (d'.failed[i]?).isSome ↔
    ∃ x, parts[i]? = some (.insert x) ∧ sources.find? (x.path d) = none := by
  constructor
  · intro hsome
    obtain ⟨failure, hfailure⟩ := Option.isSome_iff_exists.mp hsome
    obtain ⟨insert, hinsert, -, ho⟩ := (hd.failed i failure).mp hfailure
    obtain ⟨x, hx, -⟩ := h.part_of_pending hinsert
    rw [h.outcome hinsert hx] at ho
    exact ⟨x, hx, Include.found_error.mp ⟨failure.error, Option.some.inj ho⟩⟩
  · rintro ⟨x, hx, hnone⟩
    obtain ⟨insert, hinsert, -⟩ := h.pending_of_part hx
    obtain ⟨e, he⟩ := Include.found_error.mpr hnone
    have hfailed := (hd.failed i ⟨insert.tag, e⟩).mpr
      ⟨insert, hinsert, rfl, by rw [h.outcome hinsert hx, he]⟩
    rw [hfailed]
    rfl

omit hd

/-- **The includes are settled at once**, each in its own segment, and those without a text have
failed. -/
theorem fetch_settles (disk : Disk) {horizon : Nat} (hh : 0 < horizon) : ∃ failed handed,
    d.fetch disk horizon = ({ d with
      phase := .fetchedAllInserts, segments := parts.map (Page.Part.settled d sources)
      pending := ∅, failed }, handed,
      if failed.isEmpty then .settled 0 else .failed 0 (.failedInserts failed)) ∧
    ∀ i : Nat, (failed[i]?).isSome ↔
      ∃ x, parts[i]? = some (.insert x) ∧ sources.find? (x.path d) = none := by
  obtain ⟨d', handed, hfetch, hphase, hisolated⟩ :=
    Document.fetch_settles h.tokenized (h.prompt.decided disk) (by rw [h.prompt.finish]; exact hh)
  have hsegments := h.settled_segments hisolated
  have hfailed := h.settled_failed hisolated
  obtain ⟨phase, segments, failed, rfl⟩ := hisolated.frame
  obtain rfl : phase = .fetchedAllInserts := hphase
  obtain rfl : segments = parts.map (Page.Part.settled d sources) := hsegments
  rw [h.prompt.finish] at hfetch
  exact ⟨failed, handed, hfetch, hfailed⟩

end LaidOut

end Document

/-! ## The page is rendered -/

theorem Page.mem_parts {p : Page} {x : Include} :
    .insert x ∈ p.parts ↔ x ∈ p.tail.map Prod.fst := by
  have hliteral (text : String) : Part.insert x ∉ literalParts text := by
    unfold literalParts
    split <;> simp
  have htail (tail : List (Include × String)) :
      .insert x ∈ tailParts tail ↔ x ∈ tail.map Prod.fst := by
    induction tail with
    | nil => simp [tailParts]
    | cons y tail ih =>
        obtain ⟨y, text⟩ := y
        simp [tailParts, hliteral, ih]
  unfold parts
  rw [List.mem_append, or_iff_right (hliteral _), htail]

/-- A mark that is written before a text is set aside, and is the mark of the document. -/
theorem Document.install_marked (d : Document) {marked : Bool} {body : String}
    (h : marked = false → body.toList.head? ≠ some byteOrderMark) :
    let text := (if marked then byteOrderMark.toString else "") ++ body
    (d.install text).source = body ∧ (d.install text).mark =
      if marked && d.options.preserveMark then byteOrderMark.toString else "" := by
  intro text
  have hhead : (text.toList.head? == some byteOrderMark) = marked := by
    cases hm : marked with
    | true => simp [text, hm, Char.toString]
    | false => simpa [text, hm] using h hm
  constructor
  · rcases d.install_cases text with ⟨rest, ht, hs, -⟩ | ⟨hne, hs, -⟩
    · have hm : marked = true := by
        rw [← hhead, ht]
        simp
      have hb : byteOrderMark :: rest = byteOrderMark :: body.toList := by
        have hl := congrArg String.toList ht
        simpa [text, hm, Char.toString] using hl.symm
      rw [hs, (List.cons.inj hb).2, String.ofList_toList]
    · have hm : marked = false := by
        rw [← hhead, beq_eq_false_iff_ne]
        intro hhead
        obtain ⟨rest, hr⟩ := List.head?_eq_some_iff.mp hhead
        exact hne rest hr
      rw [hs]
      simp [text, hm]
  · rw [install_mark, hhead, Bool.and_comm]

namespace Session

variable {horizon : Nat} {s : Session}

theorem fetch_of_settled {d' : Document} {handed : List Nat} {time : Nat}
    (h : s.document.fetch s.outlet.disk (horizon - s.now) = (d', handed, .settled time)) :
    s.fetch horizon = ({ s with
      document := d', handles := s.handles ++ handed.map (Handle.mk · false)
      now := s.now + time }, .returned ()) := by
  unfold fetch
  rw [h]

/-- Inserts that have failed end the rendering when all are settled. -/
theorem render_of_unfetched {d' : Document} {handed : List Nat} {time : Nat} {e : RenderError}
    (hp : s.document.phase = .tokenized)
    (h : s.document.fetch s.outlet.disk (horizon - s.now) = (d', handed, .failed time e)) :
    s.render horizon = ({ s with
      document := d', handles := s.handles ++ handed.map (Handle.mk · false)
      now := s.now + time }, .failed e) := by
  apply render_of_failed
  unfold advance
  dsimp only
  rw [hp]
  dsimp only
  unfold fetch
  rw [h]
  rfl

/-- Whether a document has a page for its source, which it is about to split, and loads the includes
of the page from a table. -/
structure HasPage (d : Document) (sources : Sources) (page : Page) : Prop where
  phase : d.phase = .hasSourceText
  failed : d.failed = ∅
  merged : d.merged = none
  waiting : d.waiting = []
  registry : d.registry.Includes
  loader : d.loader = sources.loader
  timeout : d.options.timeout ≠ some 0
  quiet : page.Quiet
  source : d.source = page.written

namespace HasPage

variable {sources : Sources} {page : Page} (h : HasPage s.document sources page)
include h

theorem tokenize : ∃ segments pending notes,
    s.tokenize = ({ s with
      document := { s.document with phase := .tokenized, segments, pending }, notes },
      .returned ()) ∧
    { s.document with phase := .tokenized, segments, pending }.LaidOut sources page.parts := by
  obtain ⟨scan, hscan, hlaid⟩ := Document.scan_page h.registry h.quiet h.source
  have htokenize := tokenize_of_scan h.phase hscan
  obtain ⟨-, notes, hdocument⟩ := tokenize_returned htokenize
  exact ⟨_, _, _, htokenize, Document.tokenize_tokenized h.failed hdocument, hlaid.segments,
    hlaid.pending, h.loader, h.timeout⟩

/-- With a text for each include the page is rendered. -/
theorem render_found (hh : s.now < horizon) {texts : Include → String}
    (ht : ∀ x ∈ page.tail.map Prod.fst, sources.find? (x.path s.document) = some (texts x)) :
    ∃ s', s.render horizon = (s', .returned false) ∧
      s'.document.text = .ok (s.document.mark ++ page.expand texts) := by
  obtain ⟨segments, pending, notes, htokenize, hlaid⟩ := h.tokenize
  obtain ⟨failed, handed, hfetch, hfailed⟩ :=
    hlaid.fetch_settles s.outlet.disk (Nat.sub_pos_of_lt hh)
  have hempty : failed = ∅ := by
    apply Std.ExtTreeMap.ext_getElem?
    intro i
    rw [Slots.get_empty, ← Option.not_isSome_iff_eq_none, hfailed]
    rintro ⟨x, hx, hnone⟩
    exact absurd ((ht x (Page.mem_parts.mp (List.mem_of_getElem? hx))).symm.trans hnone) nofun
  rw [if_pos (Std.ExtTreeMap.isEmpty_iff.mpr hempty)] at hfetch
  have hsettled : page.parts.map (Page.Part.settled s.document sources) =
      (page.parts.map (Page.Part.content texts)).map .text := by
    rw [List.map_map]
    apply List.map_congr_left
    intro part hpart
    cases part with
    | text t => rfl
    | insert x =>
        show Segment.ofResult (x.found s.document sources) = Segment.text (texts x)
        unfold Include.found
        rw [ht x (Page.mem_parts.mp hpart)]
        rfl
  have hrender := render_texts htokenize (fetch_of_settled hfetch) hsettled h.waiting
  refine ⟨_, hrender, ?_⟩
  rw [Page.join_parts]
  exact Document.text_of_merged (by decide : Phase.segmentsMerged ≤ .done) rfl

/-- With a text missing the includes that have none are reported. -/
theorem render_missing (hh : s.now < horizon)
    (hm : ∃ x ∈ page.tail.map Prod.fst, sources.find? (x.path s.document) = none) :
    ∃ s' failed, s.render horizon = (s', .failed (.failedInserts failed)) ∧
      s'.document.segments = page.parts.map (Page.Part.settled s.document sources) ∧
      (∀ i : Nat, (failed[i]?).isSome ↔
        ∃ x, page.parts[i]? = some (.insert x) ∧ sources.find? (x.path s.document) = none) ∧
      s'.document.text = .error (.notRendered .fetchedAllInserts) := by
  obtain ⟨x, hx, hnone⟩ := hm
  obtain ⟨segments, pending, notes, htokenize, hlaid⟩ := h.tokenize
  obtain ⟨failed, handed, hfetch, hfailed⟩ :=
    hlaid.fetch_settles s.outlet.disk (Nat.sub_pos_of_lt hh)
  have hne : ¬ failed.isEmpty := by
    rw [Std.ExtTreeMap.isEmpty_iff]
    intro hempty
    obtain ⟨i, hpart⟩ := List.getElem?_of_mem (Page.mem_parts.mpr hx)
    have hsome := (hfailed i).mpr ⟨x, hpart, hnone⟩
    rw [hempty, Slots.get_empty] at hsome
    cases hsome
  rw [if_neg hne] at hfetch
  have hrender : s.render horizon = _ :=
    (render_of_moved (advance_tokenize htokenize)).trans (render_of_unfetched rfl hfetch)
  refine ⟨_, failed, hrender, rfl, hfailed, ?_⟩
  unfold Document.text
  dsimp only
  rw [h.merged]

end HasPage

/-- **To render a page is to put the text of each include in its place.** If there is a text for
each include, rendering succeeds and the text is the page with these texts, after the mark of the
source if there is one and it is preserved. Otherwise rendering reports the segments of just those
includes that there is no text for, and leaves no text. -/
theorem render_includes {d : Document} {sources : Sources} {page : Page} {marked : Bool}
    {text : String} (hd : d.Fresh) (hw : d.waiting = []) (hr : d.registry.Includes)
    (hl : d.loader = sources.loader) (ht : d.options.timeout ≠ some 0) (hh : s.now < horizon)
    (hq : page.Quiet) (hs : s.Sourced d text)
    (htext : text = (if marked then byteOrderMark.toString else "") ++ page.written)
    (hmark : marked = false → page.written.toList.head? ≠ some byteOrderMark) :
    (∀ texts : Include → String,
      (∀ x ∈ page.tail.map Prod.fst, sources.find? (x.path d) = some (texts x)) →
      ∃ s', s.render horizon = (s', .returned false) ∧ s'.document.text = .ok
        ((if marked && d.options.preserveMark then byteOrderMark.toString else "") ++
          page.expand texts)) ∧
    ((∃ x ∈ page.tail.map Prod.fst, sources.find? (x.path d) = none) →
      ∃ s' failed, s.render horizon = (s', .failed (.failedInserts failed)) ∧
        s'.document.segments = page.parts.map (Page.Part.settled d sources) ∧
        (∀ i : Nat, (failed[i]?).isSome ↔
          ∃ x, page.parts[i]? = some (.insert x) ∧ sources.find? (x.path d) = none) ∧
        s'.document.text = .error (.notRendered .fetchedAllInserts)) := by
  obtain ⟨hsource, hmarked⟩ := d.install_marked hmark
  rw [← htext] at hsource hmarked
  have hinstalled : s.render horizon = { s with document := d.install text }.render horizon :=
    render_installed hd.phase hs
  obtain ⟨source, installedMark, hi⟩ := d.install_eq text
  rw [hi] at hsource hmarked hinstalled
  have hpage : HasPage { d with source, marked := installedMark, phase := .hasSourceText } sources
      page := ⟨rfl, hd.failed, hd.merged, hw, hr, hl, ht, hq, hsource⟩
  constructor
  · intro texts htexts
    obtain ⟨s', hrender, htext'⟩ := HasPage.render_found (s := { s with document :=
      { d with source, marked := installedMark, phase := .hasSourceText } }) hpage hh htexts
    rw [hmarked] at htext'
    exact ⟨s', hinstalled.trans hrender, htext'⟩
  · intro hmissing
    obtain ⟨s', failed, hrender, hrest⟩ := HasPage.render_missing (s := { s with document :=
      { d with source, marked := installedMark, phase := .hasSourceText } }) hpage hh hmissing
    exact ⟨s', failed, hinstalled.trans hrender, hrest⟩

/-- A page of two includes with nothing before them or between them. -/
def twoIncludes : Page := ⟨"", [(⟨false, "b"⟩, ""), (⟨true, "/c"⟩, "!")]⟩

/-- A table with a text for the first of them, which is a tag itself. -/
def onlyFirst : Sources := ({} : Sources).insert ⟨"./b"⟩ "<!--#include file=\"b\"-->"

/-- A session on the page after a mark, with some texts to be had. -/
def including (sources : Sources) : Session where
  document := ({ registry := Registry.standard.insert "include" (.alias "include")
                 loader := sources.loader } : Document).install ("\ufeff" ++ twoIncludes.written)

theorem twoIncludes_quiet : twoIncludes.Quiet where
  head := by
    unfold Quiet
    decide +kernel
  texts := by
    unfold Quiet
    decide +kernel

/-- The tag in the text is not handled, and without the other text the second segment fails. -/
theorem twoIncludes_rendered :
    (∃ s', (including (onlyFirst.insert ⟨"./c"⟩ "C")).render 1 = (s', .returned false) ∧
      s'.document.text = .ok "\ufeff<!--#include file=\"b\"-->C!") ∧
    ∃ s' failed, (including onlyFirst).render 1 = (s', .failed (.failedInserts failed)) ∧
      failed[0]? = none ∧ (failed[1]?).isSome ∧
      s'.document.text = .error (.notRendered .fetchedAllInserts) := by
  have render (sources : Sources) := @render_includes 1 (including sources)
    { registry := Registry.standard.insert "include" (.alias "include"), loader := sources.loader }
    sources twoIncludes true _ ⟨rfl, rfl, rfl, rfl, rfl⟩ rfl Registry.includes_standard rfl nofun
    Nat.zero_lt_one twoIncludes_quiet (.inl rfl) rfl nofun
  constructor
  · obtain ⟨found, -⟩ := render (onlyFirst.insert ⟨"./c"⟩ "C")
    have h := found (fun x => if x.rooted then "C" else "<!--#include file=\"b\"-->") (by
      intro x hx
      simp only [twoIncludes, List.map_cons, List.map_nil, List.mem_cons, List.not_mem_nil,
        or_false] at hx
      obtain rfl | rfl := hx <;> decide +kernel)
    exact h
  · obtain ⟨-, missing⟩ := render onlyFirst
    obtain ⟨s', failed, hrender, -, hfailed, htext⟩ :=
      missing ⟨⟨true, "/c"⟩, by decide, by decide +kernel⟩
    refine ⟨s', failed, hrender, ?_, ?_, htext⟩
    · rw [← Option.not_isSome_iff_eq_none, hfailed]
      rintro ⟨x, hx, hnone⟩
      cases hx
      exact absurd hnone (by decide +kernel)
    · exact (hfailed 1).mpr ⟨⟨true, "/c"⟩, rfl, by decide +kernel⟩

end Session

end Inlay
