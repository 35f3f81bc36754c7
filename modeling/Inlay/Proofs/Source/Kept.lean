import Inlay.Proofs.Command.Chain
import Inlay.Proofs.Source.Outline

set_option autoImplicit false

/-! # Sources whose tags are kept

If the handlers keep every tag that they are given, then a scan that succeeds comes to nothing but
texts, and the texts join to the source (`scan_kept`). A scan can then fail for two reasons only: a
tag is malformed, or its attributes are left over (`Document.Stops`). Which of the two, and where,
is told by the stretch of the outline at which it stops.
-/

namespace Inlay

/-! ## Pieces that are kept -/

/-- A tag that is kept becomes the text of its source. -/
theorem Piece.kept_eq {d : Document} {p : Piece} {before : List Char} {slot : Nat}
    (h : p.Stands d before slot) (kept : ∀ x ∈ p.dispatch?, d.registry.Keeps x.tag x.cursor) :
    p.segment = .text p.source ∧ p.insert? = none := by
  cases p with
  | literal text => exact ⟨rfl, rfl⟩
  | command x replacement left =>
      obtain ⟨value, left', handled, hchain, hfalsy, hsource⟩ := kept x rfl
      have hresult : (d.registry.dispatch d.options.strict x.tag x.cursor).result =
          .ok (replacement, left) := h.reply ▸ h.result
      obtain ⟨rfl, rfl⟩ := Registry.eq_of_dispatch_falsy hchain hfalsy hresult
      constructor
      · show Segment.text left.source = Segment.text x.tag.source
        rw [hsource]
      · rfl

theorem Cut.kept {d : Document} {s : Scan} {pieces : List Piece} (h : Cut d s pieces)
    (kept : ∀ x ∈ s.dispatches, d.registry.Keeps x.tag x.cursor) :
    s.segments = (pieces.map Piece.source).map .text ∧ s.pending = ∅ := by
  have hp : ∀ (i : Nat) (p : Piece), pieces[i]? = some p →
      p.segment = .text p.source ∧ p.insert? = none := by
    intro i p hi
    apply Piece.kept_eq (h.stands i p hi)
    intro x hx
    apply kept
    rw [h.dispatches]
    exact List.mem_filterMap.mpr ⟨p, List.mem_of_getElem? hi, hx⟩
  constructor
  · rw [h.segments, List.map_map]
    apply List.map_congr_left
    intro p hmem
    obtain ⟨i, hi⟩ := List.getElem?_of_mem hmem
    exact (hp i p hi).1
  · apply Std.ExtTreeMap.ext_getElem?
    intro i
    rw [h.pending, Slots.get_empty]
    cases hi : pieces[i]? with
    | none => rfl
    | some p => exact (hp i p hi).2

/-! ## Scans that fail -/

namespace Document

variable {d : Document}

/-- What stops a scan all of whose tags are kept. -/
inductive Stops (d : Document) (e : TagError) : Prop where
  /-- A tag of the source is malformed. -/
  | malformed {position : Position} {rest : List Char} (h : '<' :: rest <:+ d.source.toList)
      (hr : d.registry.markers.recognise position rest = .error e)
  /-- A tag with a handler has attributes that its handlers did not consume. -/
  | leftover {x : Dispatch} {value : Value} {left : Tag} (h : x ∈ d.scan.1.dispatches)
      (hs : d.options.strict = true)
      (hc : (d.registry.chain x.tag x.cursor).result = .ok (value, left, true))
      (he : left.leftoverError? = some e)

/-- **Where every tag is kept, the source is.** The scan comes to texts that join to the source,
with no insert pending, unless it is stopped. -/
theorem scan_kept (kept : ∀ x ∈ d.scan.1.dispatches, d.registry.Keeps x.tag x.cursor) :
    (d.scan.2 = .ok () → ∃ texts, d.scan.1.segments = texts.map .text ∧
      String.join texts = d.source ∧ d.scan.1.pending = ∅) ∧
    ∀ e, d.scan.2 = .error e → d.Stops e := by
  constructor
  · intro hok
    obtain ⟨pieces, hcut, hspelled⟩ := scan_cut (d := d) (s := d.scan.1) (Prod.ext rfl hok)
    obtain ⟨hsegments, hpending⟩ := hcut.kept kept
    refine ⟨pieces.map Piece.source, hsegments, ?_, hpending⟩
    apply String.toList_inj.mp
    rw [String.toList_join, List.flatMap_map]
    exact hspelled
  · intro e he
    have hruns := d.scan_runsAlong
    rw [he] at hruns
    obtain ⟨⟨stretch, slot⟩, hmem, hfault, hhanded⟩ := hruns.exists_fault
    cases stretch with
    | literal text => cases hfault
    | malformed e' =>
        obtain rfl := Option.some.inj hfault
        obtain ⟨position, rest, hs, hr⟩ := found_of_mem_outline hmem
        exact .malformed hs hr
    | command tag =>
        have hx : d.handed tag slot ∈ d.scan.1.dispatches := hhanded _ rfl
        obtain ⟨value, left, handled, hchain, hfalsy, -⟩ := kept _ hx
        obtain ⟨rfl, hstrict, hleft⟩ := Registry.leftover_of_dispatch_falsy hchain hfalsy
          (Dispatch.error?_eq_some.mp hfault)
        exact .leftover hx hstrict hchain hleft

end Document

end Inlay
