import LineScript.Text.Bytes

namespace LineScript.Text

def Piece.bytes : Piece → Bytes
  | .char c => String.utf8EncodeChar c
  | .stray b => [b]

theorem utf8EncodeChar_ne_nil (c : Char) : String.utf8EncodeChar c ≠ [] := by
  intro hempty
  have hlength := String.length_utf8EncodeChar c
  rw [hempty] at hlength
  exact absurd hlength (Nat.ne_of_lt (Char.utf8Size_pos c))

theorem utf8EncodeChar_eq_singleton {c : Char} {b : UInt8} (hmem : b ∈ String.utf8EncodeChar c)
    (hb : b.toNat < 128) : String.utf8EncodeChar c = [b] := by
  unfold String.utf8EncodeChar at hmem ⊢
  dsimp only at hmem ⊢
  split at hmem
  · next hsmall =>
      rw [if_pos hsmall, List.mem_singleton.mp hmem]
  · exfalso
    split at hmem
    · simp only [List.mem_cons, List.not_mem_nil, or_false] at hmem
      rcases hmem with rfl | rfl <;> simp only [UInt8.toNat_ofNat'] at hb <;> omega
    · split at hmem
      · simp only [List.mem_cons, List.not_mem_nil, or_false] at hmem
        rcases hmem with rfl | rfl | rfl <;> simp only [UInt8.toNat_ofNat'] at hb <;> omega
      · simp only [List.mem_cons, List.not_mem_nil, or_false] at hmem
        rcases hmem with rfl | rfl | rfl | rfl <;> simp only [UInt8.toNat_ofNat'] at hb <;> omega

theorem eq_of_mem_utf8EncodeChar {c d : Char} {b : UInt8} (hmem : b ∈ String.utf8EncodeChar c)
    (hd : String.utf8EncodeChar d = [b]) (hb : b.toNat < 128) : c = d := by
  have hsame : encode [c] = encode [d] := by
    simp [encode, utf8EncodeChar_eq_singleton hmem hb, hd]
  have hdecoded := congrArg decode hsame
  simpa using hdecoded

theorem exists_of_leading? {text : Bytes} {c : Char} (h : leading? text = some c) :
    ∃ rest, text = String.utf8EncodeChar c ++ rest := by
  obtain ⟨bytes, hbytes⟩ := ByteArray.exists_of_utf8DecodeChar?_eq_some h
  have htake : text.take 4 = String.utf8EncodeChar c ++ bytes.data.toList := by
    have hlist := congrArg (fun bytes : ByteArray => bytes.data.toList) hbytes
    simpa using hlist
  refine ⟨bytes.data.toList ++ text.drop 4, ?_⟩
  rw [← List.append_assoc, ← htake, List.take_append_drop]

theorem flatMap_bytes_piecesAfter (skip : Nat) (text : Bytes) :
    (piecesAfter skip text).flatMap Piece.bytes = text.drop skip := by
  induction text generalizing skip with
  | nil => simp [piecesAfter]
  | cons b rest ih =>
      cases skip with
      | succ skip =>
          rw [piecesAfter, List.drop_succ_cons]
          exact ih skip
      | zero =>
          rw [piecesAfter]
          split
          · next c hleading =>
              obtain ⟨tail, htext⟩ := exists_of_leading? hleading
              have hlength := String.length_utf8EncodeChar c
              rw [List.flatMap_cons, ih, Piece.bytes, List.drop_zero]
              cases hbytes : String.utf8EncodeChar c with
              | nil => exact absurd hbytes (utf8EncodeChar_ne_nil c)
              | cons first more =>
                  rw [hbytes, List.cons_append] at htext
                  rw [hbytes] at hlength
                  obtain ⟨rfl, rfl⟩ := List.cons.inj htext
                  rw [← hlength, List.length_cons, Nat.add_sub_cancel, List.drop_left]
                  rfl
          · rw [List.flatMap_cons, ih]
            rfl

theorem flatMap_bytes_pieces (text : Bytes) : (pieces text).flatMap Piece.bytes = text :=
  flatMap_bytes_piecesAfter 0 text

/-- A character that stands for no stray byte comes from a piece of its own. -/
theorem Piece.eq_char_of_toChar {piece : Piece} {c : Char} (h : piece.toChar = c)
    (hc : c ≠ '\ufffd') : piece = .char c := by
  cases piece with
  | char d => exact congrArg Piece.char h
  | stray b => exact absurd h.symm hc

theorem subset_of_mem_decode {text : Bytes} {c : Char} (h : c ∈ decode text)
    (hc : c ≠ '\ufffd') : String.utf8EncodeChar c ⊆ text := by
  obtain ⟨piece, hmem, hpiece⟩ := List.mem_map.mp h
  obtain rfl := Piece.eq_char_of_toChar hpiece hc
  intro b hb
  rw [← flatMap_bytes_pieces text]
  exact List.mem_flatMap.mpr ⟨_, hmem, hb⟩

theorem getLast?_of_getLast?_decode {text : Bytes} {c : Char}
    (h : (decode text).getLast? = some c) (hc : c ≠ '\ufffd') :
    text.getLast? = (String.utf8EncodeChar c).getLast? := by
  rw [decode, List.getLast?_map, Option.map_eq_some_iff] at h
  obtain ⟨piece, hlast, hpiece⟩ := h
  obtain rfl := Piece.eq_char_of_toChar hpiece hc
  obtain ⟨front, hfront⟩ := List.getLast?_eq_some_iff.mp hlast
  conv => lhs; rw [← flatMap_bytes_pieces text, hfront]
  rw [List.flatMap_append, List.flatMap_singleton, Piece.bytes, List.getLast?_append,
    List.getLast?_eq_some_getLast (utf8EncodeChar_ne_nil c)]
  rfl

end LineScript.Text
