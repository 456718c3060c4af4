import ManifestVariables.Http.Percent

/-!
# Escaped text can be read back

What is escaped of a text stands for the bytes of the text, whichever characters are escaped, as
long as the percent sign is one of them (`Percent.decode_encode`). So an escaped text stands for
the text itself (`Percent.decodeText?_encode`) and for no other.
-/

namespace ManifestVariables.Percent

variable {escaped : Char → Bool} {text : List Char}

theorem digit?_digit {value : Nat} (small : value < 16) : digit? (digit value) = some value := by
  have all : ∀ value : Fin 16, digit? (digit value) = some value.val := by decide
  exact all ⟨value, small⟩

theorem decode_cons {c : Char} (plain : c ≠ '%') (rest : List Char) :
    decode (c :: rest) = String.utf8EncodeChar c ++ decode rest := by
  rw [decode]
  simp [plain]

theorem decode_encodeByte (byte : UInt8) (rest : List Char) :
    decode (encodeByte byte ++ rest) = byte :: decode rest := by
  have small : byte.toNat < 256 := byte.toNat_lt
  have whole : 16 * (byte.toNat / 16) + byte.toNat % 16 = byte.toNat := by omega
  simp [encodeByte, decode, digit?_digit (show byte.toNat / 16 < 16 by omega),
    digit?_digit (show byte.toNat % 16 < 16 by omega), whole]

theorem decode_flatMap_encodeByte (bytes : List UInt8) (rest : List Char) :
    decode (bytes.flatMap encodeByte ++ rest) = bytes ++ decode rest := by
  induction bytes with
  | nil => rfl
  | cons byte bytes ih =>
    rw [List.flatMap_cons, List.append_assoc, decode_encodeByte, ih, List.cons_append]

/-- An escaped text stands for its UTF-8 form. -/
theorem decode_encode (percent : escaped '%' = true) (text : List Char) :
    decode (encode escaped text) = text.flatMap String.utf8EncodeChar := by
  induction text with
  | nil => rfl
  | cons c rest ih =>
    have whole : encode escaped (c :: rest) = encodeChar escaped c ++ encode escaped rest := rfl
    rw [whole, List.flatMap_cons, encodeChar]
    split
    · rw [decode_flatMap_encodeByte, ih]
    next plain =>
      have different : c ≠ '%' := fun same => plain (same ▸ percent)
      rw [List.singleton_append, decode_cons different, ih]

/-- An escaped text stands for the text. -/
theorem decodeText?_encode (percent : escaped '%' = true) (text : String) :
    decodeText? (encode escaped text.toList) = some text := by
  have bytes : (⟨(text.toList.flatMap String.utf8EncodeChar).toArray⟩ : ByteArray) =
      text.toByteArray := by
    rw [← String.utf8Encode_toList, List.utf8Encode, ByteArray.ext_iff, List.data_toByteArray]
  rw [decodeText?, decode_encode percent, bytes, String.fromUTF8?, dif_pos text.isValidUTF8]
  rfl

/-- No two texts are escaped to the same bytes. -/
theorem eq_of_decode_encode_eq {other : List Char} (percent : escaped '%' = true)
    (same : decode (encode escaped text) = decode (encode escaped other)) : text = other := by
  have read (text : List Char) :
      decodeText? (encode escaped text) = some (String.ofList text) := by
    simpa using decodeText?_encode percent (String.ofList text)
  have texts : decodeText? (encode escaped text) = decodeText? (encode escaped other) := by
    rw [decodeText?, same, decodeText?]
  rw [read, read] at texts
  exact String.ofList_injective (Option.some.inj texts)

theorem encode_eq_nil_iff (percent : escaped '%' = true) : encode escaped text = [] ↔ text = [] := by
  constructor
  · intro empty
    exact eq_of_decode_encode_eq percent (by rw [empty]; rfl)
  · rintro rfl
    rfl

/-- Escaping leaves characters that are not escaped. -/
theorem encode_eq_self (plain : ∀ c ∈ text, escaped c = false) : encode escaped text = text := by
  induction text with
  | nil => rfl
  | cons c rest ih =>
    obtain ⟨here, later⟩ := List.forall_mem_cons.mp plain
    have whole : encode escaped (c :: rest) = encodeChar escaped c ++ encode escaped rest := rfl
    rw [whole, encodeChar, if_neg (by simp [here]), ih later, List.singleton_append]

theorem isHexDigit_digit {value : Nat} (small : value < 16) :
    digit value ∈ "0123456789ABCDEF".toList := by
  have all : ∀ value : Fin 16, digit value ∈ "0123456789ABCDEF".toList := by decide
  exact all ⟨value, small⟩

/-- What escaping gives is made of percent signs, digits and what is not escaped. -/
theorem mem_encode {c : Char} (member : c ∈ encode escaped text) :
    c = '%' ∨ c ∈ "0123456789ABCDEF".toList ∨ escaped c = false ∧ c ∈ text := by
  obtain ⟨own, among, member⟩ := List.mem_flatMap.mp member
  rw [encodeChar] at member
  split at member
  · obtain ⟨byte, _, member⟩ := List.mem_flatMap.mp member
    have small : byte.toNat < 256 := byte.toNat_lt
    simp only [encodeByte, List.mem_cons, List.not_mem_nil, or_false] at member
    rcases member with rfl | rfl | rfl
    · exact .inl rfl
    · exact .inr (.inl (isHexDigit_digit (by omega)))
    · exact .inr (.inl (isHexDigit_digit (by omega)))
  next plain =>
    obtain rfl := List.mem_singleton.mp member
    exact .inr (.inr ⟨by simpa using plain, among⟩)

/-- An escaped segment is one segment: it has no slash in it, and no mark that begins a query or
a fragment. -/
theorem not_mem_encode_inSegment (text : List Char) :
    '/' ∉ encode inSegment text ∧ '?' ∉ encode inSegment text ∧ '#' ∉ encode inSegment text := by
  have free (c : Char) (special : inSegment c = true) (mark : c ≠ '%')
      (letter : c ∉ "0123456789ABCDEF".toList) : c ∉ encode inSegment text := by
    intro member
    rcases mem_encode member with same | digit | ⟨plain, _⟩
    · exact mark same
    · exact letter digit
    · simp [special] at plain
  exact ⟨free '/' (by decide) (by decide) (by decide), free '?' (by decide) (by decide) (by decide),
    free '#' (by decide) (by decide) (by decide)⟩

end ManifestVariables.Percent
