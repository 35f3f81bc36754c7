import Inlay.Proofs.Command.Chain
import Inlay.Proofs.Source.Template

set_option autoImplicit false

/-! # Pages

A page is a text with includes written into it, each of which names another source. A scan lays a
page out in parts, one for each segment: its includes, and the texts between them that are not empty
(`Page.parts`). Every include is left pending, and is to be fetched from the path that its reference
leads to (`scan_page`). With a text for each include the parts join to the page with the texts in
their places, whichever of the texts around them are empty (`Page.join_parts`).
-/

namespace Inlay

/-- A reference to another source. -/
structure Include where
  /-- Whether the reference starts at the base directory, and not at the document. -/
  rooted : Bool
  reference : String
  deriving DecidableEq, Repr

namespace Include

/-- The tag that the reference is written as. -/
def form (x : Include) : TagForm :=
  ⟨"include", [(if x.rooted then "virtual" else "file", x.reference)]⟩

/-- Where the reference leads to from a place. -/
def pathFrom (x : Include) (cursor : Cursor) : Path :=
  if x.rooted then cursor.resolveVirtual x.reference else cursor.resolveFile x.reference

/-- Where the reference leads to in a document, at whatever place of it. -/
def path (x : Include) (d : Document) : Path := x.pathFrom d.cursor

/-- The fetch that an include is answered by. -/
def fetch (x : Include) (d : Document) : Fetch :=
  { work := .load 0 (x.path d) d.options.encoding }

theorem form_wellFormed (x : Include) : x.form.WellFormed where
  command := by
    show Plain "include".toList
    decide
  keys a ha := by
    obtain rfl := List.mem_singleton.mp ha
    cases x.rooted with
    | false =>
        show "file" ≠ "" ∧ Plain "file".toList ∧ '=' ∉ "file".toList
        decide
    | true =>
        show "virtual" ≠ "" ∧ Plain "virtual".toList ∧ '=' ∉ "virtual".toList
        decide
  distinct := by simp [form]

end Include

/-! ## Handling an include -/

/-- Whether a registry has the usual markers and the usual command for includes, and no handlers
that run for every tag. There may be any other commands. -/
structure Registry.Includes (r : Registry) : Prop where
  markers : r.markers = ⟨some "!--#", some "--"⟩
  handler : r.resolve "include" = some Builtin.includeFile
  before : r.resolve Key.before = none
  after : r.resolve Key.after = none

/-- An alias of the built-in handler is all that it takes. -/
theorem Registry.includes_standard : (standard.insert "include" (.alias "include")).Includes :=
  ⟨rfl, rfl, rfl, rfl⟩

namespace Registry.Includes

variable {r : Registry} (h : r.Includes) {opening : String} {closing : Option String}
  {position : Position}
include h

/-- The built-in handler consumes the one attribute of an include and answers with a fetch. -/
theorem chain_include (x : Include) (cursor : Cursor) :
    (r.chain (x.form.tag opening closing position) cursor).result =
      .ok (.fetch { work := .load 0 (x.pathFrom cursor) cursor.encoding },
        { x.form.tag opening closing position with attrs := [] }, true) := by
  obtain ⟨rooted, reference⟩ := x
  unfold chain
  rw [run_of_none h.before]
  simp only [run_of_none h.after]
  have hkey : commandKey (Include.form ⟨rooted, reference⟩ |>.tag opening closing position) =
      "include" := rfl
  have hrun (value : Value) (tag : Tag) :
      r.run "include" value tag cursor = (Builtin.includeFile value tag cursor).bind fun x =>
        .pure (x.1, x.2, true) := by
    unfold run
    rw [h.handler]
    rfl
  show ((r.run (commandKey _) .null _ cursor).bind _).result = _
  rw [hkey, hrun]
  cases rooted with
  | false => rfl
  | true => rfl

theorem dispatch_include (x : Include) (strict : Bool) (cursor : Cursor) :
    (r.dispatch strict (x.form.tag opening closing position) cursor).result =
      .ok (.later { work := .load 0 (x.pathFrom cursor) cursor.encoding },
        { x.form.tag opening closing position with attrs := [] }) := by
  rw [dispatch_eq, Reply.bind_result (h.chain_include x cursor)]
  cases strict <;> rfl

end Registry.Includes

theorem Document.handleTag_include {d : Document} (h : d.registry.Includes) (s : Scan)
    (x : Include) (opening : String) (closing : Option String) (position : Position) :
    ∃ s', d.handleTag s (x.form.tag opening closing position) = (s', .ok ()) ∧
      s'.segments = s.segments ++ [.pending] ∧
      s'.pending = s.pending.insert s.segments.length
        ⟨{ x.form.tag opening closing position with attrs := [] }, x.fetch d⟩ := by
  unfold handleTag
  dsimp only
  rw [h.dispatch_include]
  exact ⟨_, rfl, rfl, rfl⟩

/-! ## The parts of a page -/

/-- A text with includes written into it: the text before the first include, and each include with
the text that follows it. -/
structure Page where
  head : String
  tail : List (Include × String)

namespace Page

/-- The part of a page that becomes one segment. -/
inductive Part where
  | text (s : String)
  | insert (x : Include)

namespace Part

/-- The segment of a part that was scanned. -/
def segment : Part → Segment
  | text s => .text s
  | insert _ => .pending

/-- The fetch that a part waits for. -/
def fetch? (d : Document) : Part → Option Fetch
  | text _ => none
  | insert x => some (x.fetch d)

/-- The text of a part when there is a text for each include. -/
def content (texts : Include → String) : Part → String
  | text s => s
  | insert x => texts x

end Part

/-- The part of a text, unless it is empty. -/
def literalParts (text : String) : List Part := if text = "" then [] else [.text text]

/-- The parts of some includes and of the texts after them. -/
def tailParts : List (Include × String) → List Part
  | [] => []
  | (x, text) :: tail => .insert x :: literalParts text ++ tailParts tail

/-- The parts of a page, one for each segment. -/
def parts (p : Page) : List Part := literalParts p.head ++ tailParts p.tail

/-- The page as a template. -/
def template (p : Page) : Template := ⟨p.head, p.tail.map fun x => (x.1.form, x.2)⟩

/-- The page as it is written with the usual markers. -/
def written (p : Page) : String := String.ofList (p.template.source "!--#" (some "--"))

/-- The page with a text in the place of each include. -/
def expand (texts : Include → String) (p : Page) : String :=
  p.head ++ String.join (p.tail.map fun x => texts x.1 ++ x.2)

/-- Whether no text of a page seems to begin a tag. -/
structure Quiet (p : Page) : Prop where
  head : Inlay.Quiet "!--#" p.head.toList
  texts : ∀ x ∈ p.tail, Inlay.Quiet "!--#" x.2.toList

theorem join_literalParts (texts : Include → String) (text : String) (parts : List Part) :
    String.join ((literalParts text ++ parts).map (Part.content texts)) =
      text ++ String.join (parts.map (Part.content texts)) := by
  unfold literalParts
  by_cases h : text = ""
  · rw [if_pos h, List.nil_append, h, String.empty_append]
  · rw [if_neg h, List.singleton_append, List.map_cons, String.join_cons]
    rfl

/-- **The parts join to the page**, with the texts in the places of the includes. -/
theorem join_parts (texts : Include → String) (p : Page) :
    String.join (p.parts.map (Part.content texts)) = p.expand texts := by
  unfold parts expand
  rw [join_literalParts]
  congr 1
  induction p.tail with
  | nil => rfl
  | cons x tail ih =>
      obtain ⟨x, text⟩ := x
      calc String.join ((tailParts ((x, text) :: tail)).map (Part.content texts))
          = texts x ++ String.join ((literalParts text ++ tailParts tail).map
              (Part.content texts)) := by
            rw [tailParts, List.cons_append, List.map_cons, String.join_cons]
            rfl
        _ = texts x ++ (text ++ String.join ((tailParts tail).map (Part.content texts))) := by
            rw [join_literalParts]
        _ = _ := by rw [ih, List.map_cons, String.join_cons, String.append_assoc]

/-- Whether a scan has laid out some parts. -/
structure Laid (d : Document) (s : Scan) (parts : List Part) : Prop where
  segments : s.segments = parts.map Part.segment
  pending : ∀ i : Nat, (s.pending[i]?).map PendingInsert.fetch = parts[i]?.bind (Part.fetch? d)

namespace Laid

variable {d : Document} {s : Scan} {parts : List Part}

theorem start (d : Document) : Laid d {} [] where
  segments := rfl
  pending i := by simp

/-- Past the last part there is nothing pending. -/
theorem getElem?_concat (p : Part) (i : Nat) : (parts ++ [p])[i]?.bind (Part.fetch? d) =
    if i = parts.length then p.fetch? d else parts[i]?.bind (Part.fetch? d) := by
  rcases Nat.lt_trichotomy i parts.length with hi | rfl | hi
  · rw [if_neg (Nat.ne_of_lt hi), List.getElem?_append_left hi]
  · rw [if_pos rfl, List.getElem?_concat_length]
    rfl
  · rw [if_neg (Nat.ne_of_gt hi), List.getElem?_eq_none (Nat.le_of_lt hi),
      List.getElem?_eq_none (by rw [List.length_append]; exact hi)]

theorem literal (h : Laid d s parts) (text : String) :
    Laid d (s.literal text.toList) (parts ++ literalParts text) := by
  unfold literalParts
  by_cases ht : text = ""
  · have hl : s.literal text.toList = s := by
      unfold Scan.literal
      rw [if_pos (by rw [ht]; rfl)]
    rw [if_pos ht, List.append_nil, hl]
    exact h
  · have hl : s.literal text.toList = { s with segments := s.segments ++ [.text text] } := by
      unfold Scan.literal
      rw [if_neg (by simpa using ht), String.ofList_toList]
    rw [if_neg ht, hl]
    constructor
    · show s.segments ++ [.text text] = _
      rw [h.segments, List.map_append]
      rfl
    · intro i
      rw [getElem?_concat]
      have hlast : s.pending[parts.length]?.map PendingInsert.fetch = none := by
        rw [h.pending, List.getElem?_eq_none (Nat.le_refl _)]
        rfl
      by_cases hi : i = parts.length
      · rw [if_pos hi, hi]
        exact hlast
      · rw [if_neg hi]
        exact h.pending i

theorem insert (h : Laid d s parts) {s' : Scan} {x : Include} {tag : Tag}
    (hs : s'.segments = s.segments ++ [.pending])
    (hp : s'.pending = s.pending.insert s.segments.length ⟨tag, x.fetch d⟩) :
    Laid d s' (parts ++ [.insert x]) where
  segments := by
    rw [hs, h.segments, List.map_append]
    rfl
  pending i := by
    rw [getElem?_concat, hp, Slots.get_insert, h.segments, List.length_map]
    by_cases hi : i = parts.length
    · rw [if_pos hi.symm, if_pos hi]
      rfl
    · rw [if_neg (Ne.symm hi), if_neg hi]
      exact h.pending i

end Laid

end Page

/-! ## The scan of a page -/

namespace Document

open Page (Laid literalParts tailParts)

variable {d : Document}

theorem handleTail_page (h : d.registry.Includes) (tail : List (Include × String)) {s : Scan}
    {parts : List Page.Part} (hs : Laid d s parts) (position : Position) (text : String) :
    ∃ s', d.handleTail "!--#" (some "--") s position text.toList
        (tail.map fun x => (x.1.form, x.2)) = (s', .ok ()) ∧
      Laid d s' (parts ++ literalParts text ++ tailParts tail) := by
  induction tail generalizing s parts position text with
  | nil =>
      refine ⟨s.literal text.toList, rfl, ?_⟩
      rw [tailParts, List.append_nil]
      exact hs.literal text
  | cons y tail ih =>
      obtain ⟨x, next⟩ := y
      obtain ⟨s₁, ht, hsegments, hpending⟩ := d.handleTag_include h (s.literal text.toList) x
        "!--#" (some "--") position
      obtain ⟨s', hr, hs'⟩ := ih ((hs.literal text).insert hsegments hpending)
        ((position.after (x.form.written "!--#" (some "--"))).after next.toList) next
      refine ⟨s', ?_, ?_⟩
      · rw [List.map_cons, handleTail, ht]
        exact hr
      · rw [tailParts]
        simpa using hs'

/-- **A page is scanned to its parts**, with every include pending. -/
theorem scan_page {p : Page} (h : d.registry.Includes) (hq : p.Quiet)
    (hs : d.source = p.written) : ∃ s, d.scan = (s, .ok ()) ∧ Laid d s p.parts := by
  have hforms : ∀ x ∈ p.template.tail, x.1.WellFormed := by
    intro x hx
    obtain ⟨y, -, rfl⟩ := List.mem_map.mp hx
    exact y.1.form_wellFormed
  have htexts : ∀ x ∈ p.template.tail, Quiet "!--#" x.2.toList := by
    intro x hx
    obtain ⟨y, hy, rfl⟩ := List.mem_map.mp hx
    exact hq.texts y hy
  have hscan : d.scan = d.handleTail "!--#" (some "--") {} (Position.start.after p.head.toList)
      p.head.toList p.template.tail := by
    unfold scan
    rw [hs, Page.written, String.toList_ofList]
    exact scanFrom_tail h.markers (by decide) (by decide) (by decide) hforms htexts hq.head {}
      .start
  obtain ⟨s, hr, hlaid⟩ := handleTail_page h p.tail (Laid.start d)
    (Position.start.after p.head.toList) p.head
  exact ⟨s, hscan.trans hr, hlaid⟩

end Document

end Inlay
