import Inlay.Proofs.Files.Encoding
import Inlay.Proofs.Files.Storage
import Inlay.Proofs.Session.Completion
import Inlay.Proofs.Session.Revision
import Inlay.Proofs.Source.Kept
import Inlay.Proofs.Source.Template

set_option autoImplicit false

/-! # Sources that pass through

A file whose tags are all kept is written as it was read, byte for byte (`passthrough`). The way of
a byte is decoding, the scan, the merge and encoding. Decoding and encoding undo each other, the
texts of the scan join to the source, and the mark that was set aside is put before the text again,
or else is the only thing that is missing.
-/

namespace Inlay

namespace Document

variable {d : Document} {bytes : ByteArray} {text : String}

/-- With its mark before it the installed source is the text again, if the mark is preserved. -/
theorem mark_source (h : d.options.preserveMark = true) (text : String) :
    (d.install text).mark ++ (d.install text).source = text := by
  have hoptions : (d.install text).options = d.options := by
    obtain ⟨source, marked, hi⟩ := d.install_eq text
    rw [hi]
  unfold mark
  rw [hoptions, h, Bool.true_and]
  rcases d.install_cases text with ⟨rest, ht, hs, hm⟩ | ⟨-, hs, hm⟩
  · rw [hm, hs, if_pos rfl, ht]
    apply String.toList_inj.mp
    simp [Char.toString]
  · rw [hm, hs, if_neg Bool.false_ne_true, String.empty_append]

/-- The bytes that are written for a file that passes through: its own, less one mark at their head
if the mark is not preserved. -/
def passedBytes (d : Document) (bytes : ByteArray) : ByteArray :=
  if d.options.preserveMark then bytes else d.options.encoding.unmarked bytes

theorem encode_passed (h : d.options.encoding.decode bytes = some text) :
    d.options.encoding.encode ((d.install text).mark ++ (d.install text).source) =
      .ok (d.passedBytes bytes) := by
  unfold passedBytes
  cases hm : d.options.preserveMark with
  | true =>
      rw [mark_source hm, if_pos rfl]
      exact Encoding.encode_of_decode h
  | false =>
      rw [install_mark, hm, Bool.false_and, if_neg Bool.false_ne_true, String.empty_append,
        if_neg Bool.false_ne_true]
      exact encode_source h

end Document

namespace Session

variable {horizon : Nat} {s s' : Session}

/-- Whether saving a session to any path sends it the given bytes: they arrive there, or the disk
refuses them. -/
def Writes (s : Session) (bytes : ByteArray) : Prop :=
  ∀ path, (∃ outlet, s.save path = ({ s with outlet }, .returned ()) ∧
      s.outlet.Received path bytes outlet) ∨
    ∃ fault, path.same standardOutput = false ∧ s.outlet.disk.write path bytes = .error fault ∧
      s.save path = (s, .failed (.write (.system path fault)))

theorem writes_of_text {text : String} {bytes : ByteArray} (ht : s.document.text = .ok text)
    (he : s.document.options.encoding.encode text = .ok bytes) : s.Writes bytes := by
  intro path
  rcases Outlet.write_received he s.outlet path with ⟨o, hw, ho⟩ | ⟨fault, hp, hd, hw⟩
  · exact .inl ⟨o, save_written ht hw, ho⟩
  · exact .inr ⟨fault, hp, hd, save_refused ht hw⟩

/-- **A file whose tags are all kept is written as it was read.** Rendering succeeds unless a
malformed tag or a leftover attribute stops the scan. The session then writes the bytes of the file
itself, or, if the mark is not preserved, these less one mark at their head. -/
theorem passthrough {path : Path} {bytes : ByteArray} {text : String} (hd : s.document.Fresh)
    (hw : s.document.waiting = []) (hpath : s.document.filename = some path)
    (hload : s.document.loader s.outlet.disk path s.document.options.encoding =
      decodeFile path s.document.options.encoding bytes)
    (hdec : s.document.options.encoding.decode bytes = some text)
    (kept : ∀ x ∈ (s.document.install text).scan.1.dispatches,
      s.document.registry.Keeps x.tag x.cursor) :
    ((s.document.install text).scan.2 = .ok () → ∃ s', s.render horizon = (s', .returned false) ∧
      s'.outlet = s.outlet ∧ s'.Writes (s.document.passedBytes bytes)) ∧
    ∀ e, (s.document.install text).scan.2 = .error e →
      (s.document.install text).Stops e ∧ ∃ s', s.render horizon = (s', .failed (.tag e)) := by
  -- the document is loaded and installed first
  have hsourced : s.Sourced s.document text := by
    refine .inr ⟨rfl, path, hpath, ?_⟩
    rw [hload, decodeFile, hdec]
  have hinstalled : s.render horizon =
      { s with document := s.document.install text }.render horizon :=
    render_installed hd.phase hsourced
  obtain ⟨source, marked, hi⟩ := s.document.install_eq text
  have hregistry : (s.document.install text).registry = s.document.registry := by rw [hi]
  have hfailed : (s.document.install text).failed = ∅ := by
    rw [hi]
    exact hd.failed
  have hwaiting : (s.document.install text).waiting = [] := by
    rw [hi]
    exact hw
  have hoptions : (s.document.install text).options = s.document.options := by rw [hi]
  obtain ⟨hok, herror⟩ := Document.scan_kept (d := s.document.install text)
    (fun x hx => hregistry ▸ kept x hx)
  constructor
  · intro hscan
    obtain ⟨texts, hsegments, hjoin, hpending⟩ := hok hscan
    refine ⟨_, hinstalled.trans (render_scan (s.document.install_phase text) hfailed hwaiting
      (Prod.ext rfl hscan) hpending hsegments), rfl, ?_⟩
    -- the text is the source with its mark, and is encoded to the bytes that it was decoded from
    have hle : Phase.segmentsMerged ≤ .done := by decide
    refine writes_of_text (Document.text_of_merged hle rfl) ?_
    show (s.document.install text).options.encoding.encode
      ((s.document.install text).mark ++ String.join texts) = _
    rw [hjoin, hoptions]
    exact Document.encode_passed hdec
  · intro e hscan
    exact ⟨herror e hscan, _, hinstalled.trans
      (render_misread (s.document.install_phase text) (Prod.ext rfl hscan))⟩

/-- A session on a file with two marks, a tag and a bracket, for a document that drops the mark. -/
def markedTwice : Session where
  document := { filename := some ⟨"a"⟩, options := { preserveMark := false } }
  outlet := { disk := { entries := [(["a"], .file "\ufeff\ufeffé<!--#x--><b".toUTF8 0)] } }

theorem markedTwice_scan :
    (markedTwice.document.install "\ufeff\ufeffé<!--#x--><b").scan.2 = .ok () := by
  let d : Document := markedTwice.document.install "\ufeff\ufeffé<!--#x--><b"
  let tail : List (TagForm × String) := [(⟨"x", []⟩, "<b")]
  have hforms : ∀ x ∈ tail, x.1.WellFormed := by
    intro x hx
    obtain rfl := List.mem_singleton.mp hx
    exact ⟨by decide, by decide, by decide⟩
  have htexts : ∀ x ∈ tail, Quiet "!--#" x.2.toList := by
    unfold Quiet
    decide +kernel
  have hquiet : Quiet "!--#" ['\ufeff', 'é'] := by
    unfold Quiet
    decide +kernel
  have hsource : d.source.toList =
      ['\ufeff', 'é'] ++ Template.tailSource "!--#" (some "--") tail := by decide +kernel
  show (d.scanFrom {} .start [] d.source.toList).2 = .ok ()
  have hmarkers : d.registry.markers = ⟨some "!--#", some "--"⟩ := rfl
  rw [hsource, Document.scanFrom_tail hmarkers (by decide) (by decide) (by decide) hforms htexts
    hquiet]
  rfl

/-- One of the marks is dropped, and all else arrives. -/
theorem markedTwice_passed : ∃ s' outlet, markedTwice.render 0 = (s', .returned false) ∧
    s'.save ⟨"b"⟩ = ({ s' with outlet }, .returned ()) ∧
    outlet.disk.read ⟨"b"⟩ = .ok "\ufeffé<!--#x--><b".toUTF8 := by
  obtain ⟨hok, -⟩ := @passthrough 0 markedTwice ⟨"a"⟩ "\ufeff\ufeffé<!--#x--><b".toUTF8
    "\ufeff\ufeffé<!--#x--><b"
    ⟨rfl, rfl, rfl, rfl, rfl⟩ rfl rfl rfl (fromUTF8?_toUTF8 _)
    (fun x _ => Registry.keeps_of_resolve_none (fun _ => rfl) x.tag x.cursor)
  obtain ⟨s', hr, ho, hw⟩ := hok markedTwice_scan
  have hbytes : markedTwice.document.passedBytes "\ufeff\ufeffé<!--#x--><b".toUTF8 =
      "\ufeffé<!--#x--><b".toUTF8 := by decide +kernel
  rw [hbytes] at hw
  rcases hw ⟨"b"⟩ with ⟨outlet, hs, hreceived⟩ | ⟨fault, -, hd, -⟩
  · exact ⟨s', outlet, hr, hs, hreceived.2.1⟩
  · rw [ho] at hd
    cases hd

end Session

end Inlay
