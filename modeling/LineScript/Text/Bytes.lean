/-!
Texts as byte strings. What a program reads, holds and writes is any sequence of bytes; characters
appear where a text is scanned or quoted, and a byte that belongs to no UTF-8 sequence then counts as
one piece of its own.
-/

namespace LineScript

abbrev Bytes := List UInt8

def utf8 (s : String) : Bytes :=
  s.toByteArray.data.toList

namespace Text

def encode (cs : List Char) : Bytes :=
  cs.flatMap String.utf8EncodeChar

/-- A maximal part of a text that is read at once: a character or a byte outside every UTF-8
sequence. -/
inductive Piece where
  | char (c : Char)
  | stray (b : UInt8)
  deriving DecidableEq, Repr, Inhabited

/-- The character a piece stands for; a stray byte counts as U+FFFD. -/
def Piece.toChar : Piece → Char
  | .char c => c
  | .stray _ => '\ufffd'

def Piece.isChar : Piece → Bool
  | .char _ => true
  | .stray _ => false

/-- The character whose UTF-8 form starts the text, if there is one. -/
def leading? (text : Bytes) : Option Char :=
  (text.take 4).toByteArray.utf8DecodeChar? 0

/-- The pieces of a text once the first `skip` bytes, which belong to a piece already read, are
left out. -/
def piecesAfter : Nat → Bytes → List Piece
  | _, [] => []
  | skip + 1, _ :: rest => piecesAfter skip rest
  | 0, b :: rest =>
      match leading? (b :: rest) with
      | some c => .char c :: piecesAfter (c.utf8Size - 1) rest
      | none => .stray b :: piecesAfter 0 rest

def pieces (text : Bytes) : List Piece :=
  piecesAfter 0 text

def decode (text : Bytes) : List Char :=
  (pieces text).map Piece.toChar

def isWellFormed (text : Bytes) : Bool :=
  (pieces text).all Piece.isChar

def trimEndWhile (p : UInt8 → Bool) (text : Bytes) : Bytes :=
  (text.reverse.dropWhile p).reverse

/-- The text without the one byte at its end, if it ends in that byte. -/
def dropEnd (b : UInt8) (text : Bytes) : Bytes :=
  if text.getLast? = some b then text.dropLast else text

def join (separator : Bytes) (texts : List Bytes) : Bytes :=
  List.intercalate separator texts

def lineFeed : UInt8 := '\n'.toUInt8

def carriageReturn : UInt8 := '\r'.toUInt8

theorem leading?_utf8EncodeChar_append (c : Char) (rest : Bytes) :
    leading? (String.utf8EncodeChar c ++ rest) = some c := by
  have hlength : (String.utf8EncodeChar c).length ≤ 4 := by
    rw [String.length_utf8EncodeChar]
    exact Char.utf8Size_le_four c
  rw [leading?, List.take_append, List.take_of_length_le hlength, List.toByteArray_append]
  exact ByteArray.utf8DecodeChar?_utf8EncodeChar_append

theorem piecesAfter_length_append (read rest : Bytes) :
    piecesAfter read.length (read ++ rest) = pieces rest := by
  induction read with
  | nil => rfl
  | cons b read ih => simpa [piecesAfter] using ih

theorem pieces_utf8EncodeChar_append (c : Char) (rest : Bytes) :
    pieces (String.utf8EncodeChar c ++ rest) = .char c :: pieces rest := by
  have hleading := leading?_utf8EncodeChar_append c rest
  have hlength := String.length_utf8EncodeChar c
  cases hbytes : String.utf8EncodeChar c with
  | nil =>
      rw [hbytes] at hlength
      exact absurd hlength (Nat.ne_of_lt (Char.utf8Size_pos c))
  | cons b more =>
      rw [hbytes] at hleading hlength
      have hmore : more.length = c.utf8Size - 1 := by
        rw [← hlength]
        rfl
      rw [List.cons_append] at hleading ⊢
      rw [pieces, piecesAfter, hleading]
      change Piece.char c :: piecesAfter (c.utf8Size - 1) (more ++ rest) = _
      rw [← hmore, piecesAfter_length_append]

theorem pieces_encode_append (cs : List Char) (rest : Bytes) :
    pieces (encode cs ++ rest) = cs.map .char ++ pieces rest := by
  induction cs with
  | nil => rfl
  | cons c cs ih =>
      rw [encode, List.flatMap_cons, List.append_assoc, pieces_utf8EncodeChar_append]
      exact congrArg _ ih

theorem decode_encode_append (cs : List Char) (rest : Bytes) :
    decode (encode cs ++ rest) = cs ++ decode rest := by
  have hchars : Piece.toChar ∘ Piece.char = id := rfl
  simp [decode, pieces_encode_append, hchars]

@[simp]
theorem decode_encode (cs : List Char) : decode (encode cs) = cs := by
  have h := decode_encode_append cs []
  rwa [List.append_nil, show decode [] = [] from rfl, List.append_nil] at h

example : decode (utf8 "aé字🙂") = ['a', 'é', '字', '🙂'] := by decide

example : decode [0x61, 0xff, 0xe5, 0xad, 0x62] = ['a', '\ufffd', '\ufffd', '\ufffd', 'b'] := by
  decide

theorem isWellFormed_encode (cs : List Char) : isWellFormed (encode cs) := by
  have h := pieces_encode_append cs []
  rw [List.append_nil] at h
  rw [isWellFormed, h]
  simp [pieces, piecesAfter, Piece.isChar]

theorem utf8_eq_encode (s : String) : utf8 s = encode s.toList := by
  conv => lhs; rw [← String.ofList_toList (s := s)]
  simp [utf8, encode, String.ofList, List.utf8Encode]

end Text

end LineScript
