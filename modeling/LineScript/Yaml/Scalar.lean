import LineScript.Text.Bytes
import LineScript.Yaml.Lookalike

namespace LineScript.Yaml

def isBreak (c : Char) : Bool :=
  c = '\n' || c = '\r' || c = '\u0085' || c = '\u2028' || c = '\u2029'

def isSpace (c : Char) : Bool :=
  c = ' ' || c = '\t'

def isWritable (c : Char) : Bool :=
  let code := c.toNat
  c = '\n' || (0x20 ≤ code && code ≤ 0x7e) || (0xa0 ≤ code && code ≤ 0xd7ff) ||
    (0xe000 ≤ code && code ≤ 0xfffd && code != 0xfeff)

inductive Style where
  | plain
  | singleQuoted
  | doubleQuoted
  | literal
  deriving DecidableEq, Repr, Inhabited

namespace Style

/-- Whether some character of the text and the one right after it satisfy the two tests. -/
def hasNeighbours (p q : Char → Bool) : List Char → Bool
  | a :: b :: rest => (p a && q b) || hasNeighbours p q (b :: rest)
  | _ => false

def atGap : List Char → Bool
  | [] => true
  | c :: _ => isSpace c || isBreak c

def indicators : List Char :=
  ['#', ',', '[', ']', '\x7b', '\x7d', '&', '*', '!', '|', '>', '\'', '"', '%', '@', '\x60']

/-- Whether a colon before a gap or a number sign after one stands in the text; `gapBefore` tells
whether a gap comes before the text. -/
def hasIndicator (gapBefore : Bool) : List Char → Bool
  | [] => false
  | c :: rest =>
      (c = ':' && atGap rest) || (c = '#' && gapBefore) ||
        hasIndicator (isSpace c || isBreak c) rest

def startsWithIndicator (text : List Char) : Bool :=
  "---".toList.isPrefixOf text || "...".toList.isPrefixOf text ||
    match text with
    | [] => false
    | c :: rest =>
        indicators.contains c || ((c = '?' || c = ':' || c = '-') && atGap rest)

def allowsPlain (text : List Char) : Bool :=
  !startsWithIndicator text && !hasIndicator false text &&
    text.head? ≠ some ' ' && text.getLast? ≠ some ' ' &&
    text.all fun c => isWritable c && !isBreak c

def allowsSingleQuotes (text : List Char) : Bool :=
  text.all isWritable && !hasNeighbours (· = ' ') isBreak text &&
    !hasNeighbours isBreak (· = ' ') text

def allowsLiteral (text : List Char) : Bool :=
  (text.all fun c => isWritable c || c = '\t') && !hasNeighbours (· = ' ') isBreak text &&
    text.getLast? ≠ some ' '

def choose (text : List Char) : Style :=
  if text.contains '\n' then
    if allowsLiteral text then literal else doubleQuoted
  else if isLookalike text then doubleQuoted
  else if allowsPlain text then plain
  else if allowsSingleQuotes text then singleQuoted
  else doubleQuoted

end Style

def hex : (width : Nat) → Nat → List Char
  | 0, _ => []
  | width + 1, n => hex width (n / 16) ++ [(Nat.digitChar (n % 16)).toUpper]

def short? : Char → Option Char
  | '\x00' => some '0'
  | '\x07' => some 'a'
  | '\x08' => some 'b'
  | '\t' => some 't'
  | '\n' => some 'n'
  | '\x0b' => some 'v'
  | '\x0c' => some 'f'
  | '\r' => some 'r'
  | '\x1b' => some 'e'
  | '"' => some '"'
  | '\\' => some '\\'
  | '\u0085' => some 'N'
  | '\u00a0' => some '_'
  | '\u2028' => some 'L'
  | '\u2029' => some 'P'
  | _ => none

def escape (c : Char) : List Char :=
  match short? c with
  | some letter => ['\\', letter]
  | none =>
      if c.toNat < 0x100 then '\\' :: 'x' :: hex 2 c.toNat
      else if c.toNat < 0x10000 then '\\' :: 'u' :: hex 4 c.toNat
      else '\\' :: 'U' :: hex 8 c.toNat

def needsEscape (c : Char) : Bool :=
  !isWritable c || isBreak c || c = '"' || c = '\\'

/-- A text between double quotes. A byte order mark at its start makes every character an escape
sequence. -/
def doubleQuoted (text : List Char) : List Char :=
  let marked := text.head? = some '\ufeff'
  '"' :: text.flatMap (fun c => if marked || needsEscape c then escape c else [c]) ++ ['"']

example : doubleQuoted ['a', '\t', '\u00a0'] = "\"a\\t\u00a0\"".toList ∧
    doubleQuoted ['\ufeff', 'a', '\u00a0'] = "\"\\uFEFF\\x61\\_\"".toList := by decide

def spaces (count : Nat) : List Char :=
  List.replicate count ' '

/-- The text with an indentation before whatever follows a break; `broken` tells whether a break
comes before the text. -/
def indentLines (indent : Nat) (broken : Bool) : List Char → List Char
  | [] => []
  | c :: rest =>
      if isBreak c then c :: indentLines indent true rest
      else if broken then spaces indent ++ c :: indentLines indent false rest
      else c :: indentLines indent false rest

/-- What the first line of a block tells about its text: that it starts with a space or break, and
whether breaks at its end are dropped or kept. -/
def blockHeader (text : List Char) : List Char :=
  let start := if text.head?.any fun c => c = ' ' || isBreak c then ['2'] else []
  let ending := match text.reverse with
    | [] => ['-']
    | [c] => if isBreak c then ['+'] else ['-']
    | c :: d :: _ => if !isBreak c then ['-'] else if isBreak d then ['+'] else []
  '|' :: start ++ ending

/-- A block of lines. A break at the start of the text is the one after the header. -/
def block (indent : Nat) (text : List Char) : List Char :=
  if text.head?.any isBreak then blockHeader text ++ indentLines indent false text
  else blockHeader text ++ '\n' :: indentLines indent true text

def writeText (indent : Nat) (text : List Char) : List Char :=
  match Style.choose text with
  | .plain => text
  | .singleQuoted =>
      let doubled := text.flatMap fun c => if c = '\'' then [c, c] else [c]
      '\'' :: indentLines indent false doubled ++ ['\'']
  | .doubleQuoted => doubleQuoted text
  | .literal => block indent text

end LineScript.Yaml
