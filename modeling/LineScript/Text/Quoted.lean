import LineScript.Text.Bytes
import LineScript.Text.Printable

/-!
Texts between quotes, as they are shown in messages. The quote itself and backslashes are escaped,
the usual control characters have short names, and everything else that would not show is written by
its code: in two hexadecimal digits below U+0080 and for a stray byte, in four or eight otherwise.
-/

namespace LineScript.Text.Quoted

def hex : (width : Nat) → Nat → Bytes
  | 0, _ => []
  | width + 1, n => hex width (n / 16) ++ [(Nat.digitChar (n % 16)).toUInt8]

/-- The short escape of a character that would not show, if it has one. -/
def short? : Char → Option Char
  | '\x07' => some 'a'
  | '\x08' => some 'b'
  | '\x0c' => some 'f'
  | '\n' => some 'n'
  | '\r' => some 'r'
  | '\t' => some 't'
  | '\x0b' => some 'v'
  | _ => none

def ofChar (mark c : Char) : Bytes :=
  if c = mark ∨ c = '\\' then encode ['\\', c]
  else if isPrintable c then encode [c]
  else
    match short? c with
    | some letter => encode ['\\', letter]
    | none =>
        if c.toNat < 0x80 then utf8 "\\x" ++ hex 2 c.toNat
        else if c.toNat < 0x10000 then utf8 "\\u" ++ hex 4 c.toNat
        else utf8 "\\U" ++ hex 8 c.toNat

def ofPiece : Piece → Bytes
  | .char c => ofChar '"' c
  | .stray b => utf8 "\\x" ++ hex 2 b.toNat

end Quoted

def quote (text : Bytes) : Bytes :=
  utf8 "\"" ++ (pieces text).flatMap Quoted.ofPiece ++ utf8 "\""

example : quote (utf8 "a\"\\\n\x1f\u00a0é") = utf8 "\"a\\\"\\\\\\n\\x1f\\u00a0é\"" := by decide

example : quote [0xff, 0x0a] = utf8 "\"\\xff\\n\"" := by decide

def quoteChar (c : Char) : Bytes :=
  utf8 "'" ++ Quoted.ofChar '\'' c ++ utf8 "'"

end LineScript.Text
