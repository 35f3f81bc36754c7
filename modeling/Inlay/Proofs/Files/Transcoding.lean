import Inlay.Proofs.Files.Encoding

set_option autoImplicit false

/-! # Decoding and encoding are inverse to each other

A text is what some bytes are decoded to if and only if it is encoded to these bytes
(`encode_of_decode`, `decode_of_encode`), so neither direction loses or invents anything, and bytes
that are no text are the encoding of none. In UTF-8 every text has bytes. In `latin1` a character
has a byte unless it lies beyond `U+00FF`, and encoding a text fails at the first character that
does (`latin1Bytes_eq_error_iff`).
-/

namespace Inlay

namespace Encoding

/-! ## Single characters -/

theorem latin1Byte?_eq_none_iff {c : Char} : latin1Byte? c = none ↔ 0xff < c.toNat := by
  unfold latin1Byte?
  split
  · simp only [reduceCtorEq, false_iff]
    omega
  · simp only [true_iff]
    omega

theorem latin1Char_of_latin1Byte? {c : Char} {b : UInt8} (h : latin1Byte? c = some b) :
    latin1Char b = c := by
  unfold latin1Byte? at h
  split at h
  · rename_i hc
    obtain rfl := Option.some.inj h
    apply Char.toNat_inj.mp
    rw [toNat_latin1Char, UInt8.toNat_ofNat']
    exact Nat.mod_eq_of_lt hc
  · cases h

/-! ## Texts in `latin1` -/

/-- Whether a character is the first one in a list that lies beyond `U+00FF`. -/
def FirstBeyond (text : List Char) (c : Char) : Prop :=
  ∃ before after, text = before ++ c :: after ∧ (∀ x ∈ before, x.toNat ≤ 0xff) ∧ 0xff < c.toNat

theorem latin1Bytes_cons {c : Char} {b : UInt8} (h : latin1Byte? c = some b) (text : List Char) :
    latin1Bytes (c :: text) = (latin1Bytes text).map (b :: ·) := by
  rw [latin1Bytes, h]

theorem latin1Bytes_eq_ok_iff {text : List Char} {bytes : List UInt8} :
    latin1Bytes text = .ok bytes ↔ text = bytes.map latin1Char := by
  refine ⟨fun h => ?_, fun h => h ▸ latin1Bytes_map bytes⟩
  induction text generalizing bytes with
  | nil =>
      obtain rfl := Except.ok.inj h
      rfl
  | cons c text ih =>
      cases hc : latin1Byte? c with
      | none =>
          rw [latin1Bytes, hc] at h
          cases h
      | some b =>
          rw [latin1Bytes_cons hc] at h
          cases ht : latin1Bytes text with
          | error x =>
              rw [ht] at h
              cases h
          | ok rest =>
              rw [ht] at h
              obtain rfl := Except.ok.inj h
              rw [List.map_cons, latin1Char_of_latin1Byte? hc, ← ih ht]

theorem firstBeyond_cons {c x : Char} {text : List Char} (h : x.toNat ≤ 0xff) :
    FirstBeyond (x :: text) c ↔ FirstBeyond text c := by
  constructor
  · rintro ⟨before, after, ht, hb, hc⟩
    cases before with
    | nil =>
        obtain ⟨rfl, -⟩ := List.cons.inj ht
        exact absurd hc (Nat.not_lt_of_le h)
    | cons y before =>
        obtain ⟨rfl, rfl⟩ := List.cons.inj ht
        exact ⟨before, after, rfl, (List.forall_mem_cons.mp hb).2, hc⟩
  · rintro ⟨before, after, rfl, hb, hc⟩
    exact ⟨x :: before, after, rfl, List.forall_mem_cons.mpr ⟨h, hb⟩, hc⟩

theorem firstBeyond_cons_beyond {c x : Char} {text : List Char} (h : 0xff < x.toNat) :
    FirstBeyond (x :: text) c ↔ x = c := by
  constructor
  · rintro ⟨before, after, ht, hb, -⟩
    cases before with
    | nil => exact (List.cons.inj ht).1
    | cons y before =>
        obtain ⟨rfl, -⟩ := List.cons.inj ht
        exact absurd h (Nat.not_lt_of_le (List.forall_mem_cons.mp hb).1)
  · rintro rfl
    exact ⟨[], text, rfl, List.forall_mem_nil _, h⟩

theorem map_eq_error_iff {α β ε : Type} {x : Except ε α} {f : α → β} {c : ε} :
    x.map f = .error c ↔ x = .error c := by
  cases x with
  | error e => simp [Except.map]
  | ok a => simp [Except.map]

/-- The fault is the first character without a byte. -/
theorem latin1Bytes_eq_error_iff {text : List Char} {c : Char} :
    latin1Bytes text = .error c ↔ FirstBeyond text c := by
  induction text with
  | nil =>
      refine ⟨nofun, ?_⟩
      rintro ⟨before, after, ht, -⟩
      cases before <;> cases ht
  | cons x text ih =>
      cases hx : latin1Byte? x with
      | none =>
          rw [firstBeyond_cons_beyond (latin1Byte?_eq_none_iff.mp hx), latin1Bytes, hx]
          exact ⟨Except.error.inj, fun hxc => hxc ▸ rfl⟩
      | some b =>
          have hin : x.toNat ≤ 0xff := by
            refine Nat.le_of_not_lt fun h => ?_
            rw [latin1Byte?_eq_none_iff.mpr h] at hx
            cases hx
          rw [firstBeyond_cons hin, latin1Bytes_cons hx, map_eq_error_iff, ih]

theorem exists_firstBeyond {text : List Char} :
    (∃ c, FirstBeyond text c) ↔ ∃ c ∈ text, 0xff < c.toNat := by
  constructor
  · rintro ⟨c, before, after, rfl, -, hc⟩
    exact ⟨c, by simp, hc⟩
  · rintro ⟨c, hc, hb⟩
    cases h : latin1Bytes text with
    | error x => exact ⟨x, latin1Bytes_eq_error_iff.mp h⟩
    | ok bytes =>
        -- then all characters are those of bytes
        rw [latin1Bytes_eq_ok_iff.mp h] at hc
        obtain ⟨b, -, rfl⟩ := List.mem_map.mp hc
        rw [← latin1Byte?_eq_none_iff, latin1Byte?_latin1Char] at hb
        cases hb

/-! ## Both encodings -/

variable {e : Encoding} {bytes : ByteArray} {text : String} {c : Char}

theorem decode_of_encode (h : e.encode text = .ok bytes) : e.decode bytes = some text := by
  cases e with
  | utf8 =>
      obtain rfl := Except.ok.inj h
      exact fromUTF8?_toUTF8 text
  | latin1 =>
      rw [encode] at h
      cases hb : latin1Bytes text.toList with
      | error x =>
          rw [hb] at h
          cases h
      | ok list =>
          rw [hb] at h
          obtain rfl := Except.ok.inj h
          rw [decode, toList_eq_data, ← latin1Bytes_eq_ok_iff.mp hb, String.ofList_toList]

theorem encode_eq_error_iff :
    e.encode text = .error c ↔ e = .latin1 ∧ FirstBeyond text.toList c := by
  cases e with
  | utf8 => exact ⟨nofun, nofun⟩
  | latin1 =>
      rw [encode, map_eq_error_iff, latin1Bytes_eq_error_iff]
      exact ⟨fun h => ⟨rfl, h⟩, And.right⟩

/-- **Decoding and encoding undo each other.** In either encoding, what bytes are decoded to is
encoded to the same bytes, and what a text is encoded to is decoded to the same text. Encoding fails
if and only if the encoding is `latin1` and the text has a character beyond `U+00FF`; the fault is
then the first such character. -/
theorem transcoding (e : Encoding) :
    (∀ bytes text, e.decode bytes = some text → e.encode text = .ok bytes) ∧
    (∀ bytes text, e.encode text = .ok bytes → e.decode bytes = some text) ∧
    (∀ text, (∃ c, e.encode text = .error c) ↔
      e = .latin1 ∧ ∃ c ∈ text.toList, 0xff < c.toNat) ∧
    ∀ text c, e.encode text = .error c ↔ e = .latin1 ∧ FirstBeyond text.toList c := by
  refine ⟨fun _ _ => encode_of_decode, fun _ _ => decode_of_encode, fun text => ?_,
    fun _ _ => encode_eq_error_iff⟩
  simp only [encode_eq_error_iff, exists_and_left, exists_firstBeyond]

/-- One byte is an accented letter and back, and the first of two characters without a byte is the
fault. -/
theorem accented_transcoded : latin1.decode ⟨#[0xe9]⟩ = some "é" ∧
    latin1.encode "é" = .ok ⟨#[0xe9]⟩ ∧ latin1.encode "é€Ā" = .error '€' := by
  obtain ⟨hback, -, -, hfault⟩ := transcoding latin1
  have hdecode : latin1.decode ⟨#[0xe9]⟩ = some "é" := by decide +kernel
  have hin : ∀ x ∈ ['é'], x.toNat ≤ 0xff := List.forall_mem_singleton.mpr (by decide)
  have hfirst : FirstBeyond ['é', '€', 'Ā'] '€' := ⟨['é'], ['Ā'], rfl, hin, by decide⟩
  exact ⟨hdecode, hback _ _ hdecode, (hfault _ _).mpr ⟨rfl, hfirst⟩⟩

end Encoding

end Inlay
