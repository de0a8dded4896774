import ContextPack.Text.Decoding
import ContextPack.Proofs.Text.Utf16

namespace ContextPack.Decoding

/-!
# Texts of files

Reading the bytes of a text gives the text, whatever of three encodings a mark
names, and one mark is taken off.  A file without a mark is read as UTF-8 if it
is well-formed; of its text only a mark at the front is lost.

Whether a file is text is judged from a sample, whose end may divide a character.
The sample is then not well-formed although the file is, and a file with few
printable ASCII bytes is taken for binary data.
-/

/-! ## Marks -/

/-- The encodings that a byte-order mark names. -/
inductive Encoding where
  | utf8
  | utf16 (order : Utf16.ByteOrder)

namespace Encoding

def mark : Encoding → List UInt8
  | utf8 => [0xEF, 0xBB, 0xBF]
  | utf16 .little => [0xFF, 0xFE]
  | utf16 .big => [0xFE, 0xFF]

def encode : Encoding → List Char → List UInt8
  | utf8 => Utf8.encode
  | utf16 order => Utf16.encode order

/-- A mark is the character U+FEFF in its encoding. -/
theorem encode_mark (encoding : Encoding) (text : List Char) :
    encoding.encode ('\uFEFF' :: text) = encoding.mark ++ encoding.encode text := by
  rcases encoding with _ | (_ | _) <;> rfl

end Encoding

theorem decodeBytes_marked (guess : Guess) (encoding : Encoding) (text : List Char) :
    decodeBytes guess (encoding.mark ++ encoding.encode text) = text := by
  rcases encoding with _ | (_ | _)
  · exact Utf8.decodeLossy_encode text
  · exact Utf16.decode_encode .little text
  · exact Utf16.decode_encode .big text

/-! ## Unmarked texts -/

/-- Well-formed UTF-8 begins with no mark of UTF-16. -/
theorem utf16Mark?_of_isValid {bytes : List UInt8} (valid : Utf8.isValid bytes = true) (n : Nat) :
    utf16Mark? (bytes.take n) = none := by
  unfold utf16Mark?
  split
  · next rest sample =>
      have parts := List.take_append_drop n bytes
      rw [sample, List.cons_append] at parts
      rw [← parts] at valid
      exact absurd (Utf8.le_of_isValid valid) (by decide)
  · next rest sample =>
      have parts := List.take_append_drop n bytes
      rw [sample, List.cons_append] at parts
      rw [← parts] at valid
      exact absurd (Utf8.le_of_isValid valid) (by decide)
  · rfl

/-- Only a text with U+FEFF at its front has bytes that begin with the mark of UTF-8. -/
theorem head?_of_encode {text : List Char} {rest : List UInt8}
    (bytes : Utf8.encode text = 0xEF :: 0xBB :: 0xBF :: rest) : text.head? = some '\uFEFF' := by
  have units := Utf8.units_encode text
  rw [bytes, Utf8.units, Utf8.run_three rest (by decide) (by decide) (by decide)] at units
  cases text with
  | nil => cases units
  | cons c others =>
      rw [List.map_cons, List.cons.injEq, Option.some.injEq] at units
      rw [List.head?_cons, ← units.1]
      rfl

theorem decodeBytes_encode (guess : Guess) {text : List Char}
    (unmarked : text.head? ≠ some '\uFEFF') : decodeBytes guess (Utf8.encode text) = text := by
  have valid := Utf8.isValid_encode text
  unfold decodeBytes
  split
  · next rest bytes => exact absurd (head?_of_encode bytes) unmarked
  · next rest bytes =>
      rw [bytes] at valid
      exact absurd (Utf8.le_of_isValid valid) (by decide)
  · next rest bytes =>
      rw [bytes] at valid
      exact absurd (Utf8.le_of_isValid valid) (by decide)
  · rw [decodeUnmarked, Utf8.decode?_encode]

/-- Decoding undoes encoding: after each mark, and without one unless the text
begins with U+FEFF.  A second mark is part of the text.  What a mark of UTF-16
begins is no binary data.  In none of this is an encoding guessed. -/
theorem decodeText_undoes_encoding (guess : Guess) (text : List Char) :
    (∀ encoding : Encoding,
      decodeBytes guess (encoding.mark ++ encoding.encode text) = text ∧
      decodeBytes guess (encoding.mark ++ (encoding.mark ++ encoding.encode text)) =
        '\uFEFF' :: text) ∧
    (text.head? ≠ some '\uFEFF' → decodeBytes guess (Utf8.encode text) = text) ∧
    decodeBytes guess (Utf8.encode ('\uFEFF' :: text)) = text ∧
    ∀ order, looksBinary ((Encoding.utf16 order).mark ++ Utf16.encode order text) = false := by
  refine ⟨fun encoding => ⟨decodeBytes_marked guess encoding text, ?_⟩, decodeBytes_encode guess,
    ?_, ?_⟩
  · rw [← encoding.encode_mark]
    exact decodeBytes_marked guess encoding _
  · exact decodeBytes_marked guess .utf8 text
  · intro order
    cases order <;> rfl

/-- Past the first plane a character is a pair of surrogates. -/
theorem decodeText_undoes_encoding_of_surrogates :
    decodeText [0xFF, 0xFE, 0x67, 0x00, 0x3D, 0xD8, 0x00, 0xDE] = ['g', '😀'] ∧
      decodeText [0x67, 0xF0, 0x9F, 0x98, 0x80] = ['g', '😀'] := by
  rcases decodeText_undoes_encoding .western ['g', '😀'] with ⟨marked, plain, -⟩
  exact ⟨(marked (.utf16 .little)).1, plain (by decide)⟩

/-! ## Samples of UTF-8 -/

/-- Where the byte of a character stands among those of a text. -/
theorem getElem?_encode (front rest : List Char) (c : Char) {i : Nat}
    (inside : i < (String.utf8EncodeChar c).length) :
    (Utf8.encode (front ++ c :: rest))[(Utf8.encode front).length + i]? =
      (String.utf8EncodeChar c)[i]? := by
  have parts : Utf8.encode (front ++ c :: rest) =
      Utf8.encode front ++ (String.utf8EncodeChar c ++ Utf8.encode rest) := by
    simp [Utf8.encode]
  rw [parts, List.getElem?_append_right (Nat.le_add_right _ i), Nat.add_sub_cancel_left,
    List.getElem?_append_left inside]

theorem length_encode_replicate (n : Nat) (c : Char) :
    (Utf8.encode (List.replicate n c)).length = n * (String.utf8EncodeChar c).length := by
  simp [Utf8.encode, List.length_flatMap]

theorem mem_encode_replicate {n : Nat} {c : Char} {byte : UInt8}
    (member : byte ∈ Utf8.encode (List.replicate n c)) : byte ∈ String.utf8EncodeChar c := by
  rcases List.mem_flatMap.mp member with ⟨other, isOther, ofOther⟩
  rwa [List.eq_of_mem_replicate isOther] at ofOther

/-- Of well-formed UTF-8 without NUL only the sample's end and its printable bytes
are judged. -/
theorem looksBinary_eq {bytes : List UInt8} (valid : Utf8.isValid bytes = true)
    (noNul : 0 ∉ bytes) :
    looksBinary bytes = (!Utf8.isValid (bytes.take sampleSize) &&
      decide (10 * (bytes.take sampleSize).countP isPrintable < 7 * (bytes.take sampleSize).length)) := by
  have unmarked := utf16Mark?_of_isValid valid sampleSize
  have noNulInside : 0 ∉ bytes.take sampleSize := fun member => noNul (List.mem_of_mem_take member)
  rw [looksBinary]
  generalize bytes.take sampleSize = sample at unmarked noNulInside ⊢
  unfold sampleIsBinary
  cases sample with
  | nil => rfl
  | cons first rest =>
      rw [List.isEmpty_cons, unmarked, List.contains_eq_mem, decide_eq_false noNulInside,
        List.countP_eq_length_filter]
      cases Utf8.isValid (first :: rest) <;> rfl

/-- Well-formed UTF-8 without NUL is taken for binary data just if its sample ends
within a character and holds less than seven printable bytes in ten. -/
theorem looksBinary_iff_of_isValid {bytes : List UInt8} (valid : Utf8.isValid bytes = true)
    (noNul : 0 ∉ bytes) :
    looksBinary bytes = true ↔
      (∃ byte, bytes[sampleSize]? = some byte ∧ Utf8.IsContinuation byte) ∧
        10 * (bytes.take sampleSize).countP isPrintable < 7 * sampleSize := by
  have divided : Utf8.isValid (bytes.take sampleSize) = false ↔
      ∃ byte, bytes[sampleSize]? = some byte ∧ Utf8.IsContinuation byte := by
    rw [← Bool.not_eq_true, Utf8.isValid_take_iff valid]
    simp
  rw [looksBinary_eq valid noNul, Bool.and_eq_true, Bool.not_eq_true', decide_eq_true_eq, divided]
  refine and_congr_right ?_
  rintro ⟨byte, next, -⟩
  have long : sampleSize < bytes.length := (List.getElem?_eq_some_iff.mp next).1
  rw [List.length_take_of_le (Nat.le_of_lt long)]

/-- Two bytes make each of these letters, so the sample ends between two. -/
theorem looksBinary_iff_of_isValid_of_accents :
    let accents := Utf8.encode (List.replicate 5000 'é')
    Utf8.isValid accents = true ∧ 0 ∉ accents ∧ looksBinary accents = false := by
  intro accents
  have valid : Utf8.isValid accents = true := Utf8.isValid_encode _
  have noNul : 0 ∉ accents := fun member => absurd (mem_encode_replicate member) (by decide)
  refine ⟨valid, noNul, ?_⟩
  rw [← Bool.not_eq_true, looksBinary_iff_of_isValid valid noNul]
  rintro ⟨⟨byte, next, continues⟩, -⟩
  have place : sampleSize = (Utf8.encode (List.replicate 4096 'é')).length + 0 := by
    rw [length_encode_replicate]
    rfl
  have parts : List.replicate 5000 'é' = List.replicate 4096 'é' ++ 'é' :: List.replicate 903 'é' := by
    rw [← List.replicate_succ, List.replicate_append_replicate]
  have isLead : accents[sampleSize]? = some 0xC3 := by
    rw [place]
    simp only [accents, parts]
    exact getElem?_encode _ _ _ (by decide)
  rw [isLead, Option.some.injEq] at next
  subst next
  exact absurd continues (by decide)

/-- Three bytes make each of these letters, so the sample ends within one, and none
of its bytes is printable ASCII. -/
theorem looksBinary_of_kana :
    let kana := Utf8.encode (List.replicate 2731 'あ')
    Utf8.isValid kana = true ∧ 0 ∉ kana ∧ looksBinary kana = true := by
  intro kana
  have ofKana {byte : UInt8} (member : byte ∈ kana) : byte ∈ String.utf8EncodeChar 'あ' :=
    mem_encode_replicate member
  have valid : Utf8.isValid kana = true := Utf8.isValid_encode _
  have noNul : 0 ∉ kana := fun member => absurd (ofKana member) (by decide)
  have place : sampleSize = (Utf8.encode (List.replicate 2730 'あ')).length + 2 := by
    rw [length_encode_replicate]
    rfl
  have parts : List.replicate 2731 'あ' = List.replicate 2730 'あ' ++ 'あ' :: [] :=
    List.replicate_succ'
  have continues : kana[sampleSize]? = some 0x82 := by
    rw [place]
    simp only [kana, parts]
    exact getElem?_encode _ _ _ (by decide)
  have divided : Utf8.isValid (kana.take sampleSize) = false := by
    rw [← Bool.not_eq_true, Utf8.isValid_take_iff valid]
    exact fun atEnd => atEnd _ continues (by decide)
  have unprintable : (kana.take sampleSize).countP isPrintable = 0 := by
    have ofOne : (String.utf8EncodeChar 'あ').countP isPrintable = 0 := by decide
    apply List.countP_eq_zero.mpr
    intro byte member
    exact List.countP_eq_zero.mp ofOne byte (ofKana (List.mem_of_mem_take member))
  have long : sampleSize ≤ kana.length := Nat.le_of_lt (List.getElem?_eq_some_iff.mp continues).1
  refine ⟨valid, noNul, ?_⟩
  rw [looksBinary_eq valid noNul, divided, unprintable, List.length_take_of_le long]
  rfl

end ContextPack.Decoding
