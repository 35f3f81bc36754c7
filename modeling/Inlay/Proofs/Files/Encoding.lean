import Inlay.Document.Basic

set_option autoImplicit false

/-! # Bytes and texts

Whatever was decoded is encoded to the same bytes again, in either encoding (`encode_of_decode`).
The mark at the head of a source stands between the two: a document sets the character aside, and
the bytes that are left are those of the file less the three of the mark (`encode_source`). That
takes two facts. No other character is encoded to bytes that begin with those of the mark, since
the encoding of one text is a prefix of that of another only if the texts are so; and no byte of
`latin1` is a mark.
-/

namespace Inlay

/-! ## Lists of bytes -/

theorem toListLoop_eq (bytes : ByteArray) (i : Nat) (read : List UInt8) :
    ByteArray.toList.loop bytes i read = read.reverse ++ bytes.data.toList.drop i := by
  fun_induction ByteArray.toList.loop bytes i read with
  | case1 i read h ih =>
    have hi : i < bytes.data.toList.length := by simpa using h
    rw [ih, List.drop_eq_getElem_cons hi]
    simp [ByteArray.get!, h]
  | case2 i read h =>
    rw [List.drop_eq_nil_of_le (by simpa using Nat.le_of_not_lt h), List.append_nil]

theorem toList_eq_data (bytes : ByteArray) : bytes.toList = bytes.data.toList := by
  rw [ByteArray.toList, toListLoop_eq]
  rfl

/-! ## UTF-8 -/

theorem fromUTF8?_toUTF8 (s : String) : String.fromUTF8? s.toUTF8 = some s := by
  simp only [String.fromUTF8?, String.toUTF8_eq_toByteArray, dif_pos s.isValidUTF8]
  rfl

theorem toUTF8_of_fromUTF8? {bytes : ByteArray} {s : String} (h : String.fromUTF8? bytes = some s) :
    s.toUTF8 = bytes := by
  unfold String.fromUTF8? at h
  split at h
  · rw [← Option.some.inj h]
    rfl
  · cases h

theorem utf8Bytes_cons (c : Char) (text : List Char) :
    (String.ofList (c :: text)).toUTF8.data.toList =
      [c].utf8Encode.data.toList ++ (String.ofList text).toUTF8.data.toList := by
  simp only [String.toUTF8_eq_toByteArray, String.toByteArray_ofList]
  rw [List.utf8Encode_cons, ByteArray.toList_data_append]

theorem utf8Encode_mark : [byteOrderMark].utf8Encode.data.toList = [0xef, 0xbb, 0xbf] := by
  decide +kernel

/-- Only the mark is encoded to the bytes of the mark. -/
theorem head_of_utf8Bytes {text : List Char} {rest : List UInt8}
    (h : (String.ofList text).toUTF8.data.toList = 0xef :: 0xbb :: 0xbf :: rest) :
    ∃ text', text = byteOrderMark :: text' := by
  rw [String.toUTF8_eq_toByteArray, String.toByteArray_ofList] at h
  have hp : [byteOrderMark].utf8Encode ++ (⟨rest.toArray⟩ : ByteArray) = text.utf8Encode := by
    apply ByteArray.ext
    apply Array.toList_inj.mp
    rw [ByteArray.toList_data_append, utf8Encode_mark, h]
    rfl
  obtain ⟨text', rfl⟩ := List.isPrefix_of_utf8Encode_append_eq_utf8Encode _ hp
  exact ⟨text', rfl⟩

namespace Encoding

/-! ## Latin-1 -/

theorem toNat_latin1Char (b : UInt8) : (latin1Char b).toNat = b.toNat := by
  have hb : b.toNat.isValidChar := Or.inl (Nat.lt_trans b.toNat_lt (by decide))
  rw [latin1Char, Char.ofNat, dif_pos hb]
  rfl

theorem latin1Byte?_latin1Char (b : UInt8) : latin1Byte? (latin1Char b) = some b := by
  rw [latin1Byte?, toNat_latin1Char, if_pos b.toNat_lt, UInt8.ofNat_toNat]

theorem latin1Bytes_map (bytes : List UInt8) : latin1Bytes (bytes.map latin1Char) = .ok bytes := by
  induction bytes with
  | nil => rfl
  | cons b bytes ih => simp [latin1Bytes, latin1Byte?_latin1Char, ih, Except.map]

theorem latin1Char_ne_mark (b : UInt8) : latin1Char b ≠ byteOrderMark := by
  intro h
  have ht : (latin1Char b).toNat = 0xfeff := by rw [h]; rfl
  rw [toNat_latin1Char] at ht
  have := b.toNat_lt
  omega

/-! ## Both encodings -/

variable {e : Encoding} {bytes : ByteArray} {text : String}

/-- **What was decoded is encoded to the same bytes.** -/
theorem encode_of_decode (h : e.decode bytes = some text) : e.encode text = .ok bytes := by
  cases e with
  | utf8 => rw [encode, toUTF8_of_fromUTF8? h]
  | latin1 =>
    obtain rfl := Option.some.inj h
    rw [encode, String.toList_ofList, latin1Bytes_map, toList_eq_data]
    rfl

/-- A byte string less one mark at its head, if there is one. There are bytes for it in UTF-8
alone. -/
def unmarked : Encoding → ByteArray → ByteArray
  | .latin1, bytes => bytes
  | .utf8, bytes =>
    match bytes.data.toList with
    | 0xef :: 0xbb :: 0xbf :: rest => ⟨rest.toArray⟩
    | _ => bytes

theorem unmarked_mark (rest : List UInt8) :
    unmarked .utf8 ⟨(0xef :: 0xbb :: 0xbf :: rest).toArray⟩ = ⟨rest.toArray⟩ := rfl

theorem unmarked_of_ne (h : ∀ rest, bytes.data.toList ≠ 0xef :: 0xbb :: 0xbf :: rest) :
    unmarked .utf8 bytes = bytes := by
  rw [unmarked]
  split
  next rest hr => exact absurd hr (h rest)
  next => rfl

end Encoding

namespace Document

variable {d : Document} {e : Encoding} {bytes : ByteArray} {text : String}

/-- A mark at the head of a text is set aside, and nothing else is. -/
theorem install_cases (d : Document) (text : String) :
    (∃ rest, text = String.ofList (byteOrderMark :: rest) ∧
      (d.install text).source = String.ofList rest ∧ (d.install text).marked = true) ∨
    (∀ rest, text.toList ≠ byteOrderMark :: rest) ∧
      (d.install text).source = text ∧ (d.install text).marked = false := by
  unfold install
  split
  next c rest ht =>
    by_cases hc : c = byteOrderMark
    · rw [if_pos hc]
      refine .inl ⟨rest, ?_, rfl, rfl⟩
      rw [← hc, ← ht, String.ofList_toList]
    · rw [if_neg hc]
      refine .inr ⟨fun rest' h => hc ?_, rfl, rfl⟩
      exact (List.cons.inj (ht.symm.trans h)).1
  next ht =>
    refine .inr ⟨fun rest h => ?_, rfl, rfl⟩
    rw [ht] at h
    cases h

/-- **The installed source stands for the bytes less the mark.** -/
theorem encode_source (h : e.decode bytes = some text) :
    e.encode (d.install text).source = .ok (e.unmarked bytes) := by
  rcases d.install_cases text with ⟨rest, rfl, hs, -⟩ | ⟨hne, hs, -⟩
  · rw [hs]
    cases e with
    | latin1 =>
        -- there is no byte for the mark
        have hm := congrArg String.toList (Option.some.inj h)
        rw [String.toList_ofList, String.toList_ofList] at hm
        obtain ⟨b, -, hb⟩ := List.mem_map.mp (hm ▸ List.mem_cons_self : byteOrderMark ∈ _)
        exact absurd hb (Encoding.latin1Char_ne_mark b)
    | utf8 =>
        have hsplit : bytes = ⟨(0xef :: 0xbb :: 0xbf ::
            (String.ofList rest).toUTF8.data.toList).toArray⟩ := by
          apply ByteArray.ext
          apply Array.toList_inj.mp
          rw [← toUTF8_of_fromUTF8? h, utf8Bytes_cons, utf8Encode_mark]
          rfl
        rw [hsplit, Encoding.unmarked_mark]
        rfl
  · rw [hs, Encoding.encode_of_decode h]
    cases e with
    | latin1 => rfl
    | utf8 =>
        rw [Encoding.unmarked_of_ne]
        intro rest hr
        rw [← toUTF8_of_fromUTF8? h, ← String.ofList_toList (s := text)] at hr
        obtain ⟨text', ht⟩ := head_of_utf8Bytes hr
        exact hne text' ht

end Document

end Inlay
