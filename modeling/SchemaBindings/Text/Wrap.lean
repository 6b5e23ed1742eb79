import SchemaBindings.Text.Cut
import SchemaBindings.Unicode.Alphanumeric

/-! Breaking a text into lines of bounded width. A line is filled with as many parts as fit, where a
part is a word, a piece of a word up to a hyphen, or, when that is still too wide, as much of it as
fits on a line. Only the spaces at the end of a line are lost. -/

namespace SchemaBindings.Text

/-- Characters from the Hangul Jamo on take two columns. -/
def charWidth (c : Char) : Nat := if c.toNat < 0x1100 then 1 else 2

/-- A terminal control sequence, which takes no columns, is read with one of these states. -/
inductive Control
  | outside
  /-- After the escape character. -/
  | start
  /-- After `ESC [`, up to a final byte. -/
  | sequence
  /-- After `ESC ]`, up to BEL or `ESC \`; the flag says that the last character was ESC. -/
  | command (escaped : Bool)
  deriving DecidableEq, Repr

def escapeChar : Char := '\x1b'

def Control.next (state : Control) (c : Char) : Control :=
  match state with
  | .outside => if c = escapeChar then .start else .outside
  | .start => if c = '[' then .sequence else if c = ']' then .command false else .outside
  | .sequence => if '@' ≤ c ∧ c ≤ '~' then .outside else .sequence
  | .command escaped =>
    if c = '\x07' ∨ c = '\\' ∧ escaped then .outside else .command (c == escapeChar)

/-- The columns that a character takes in a state. -/
def Control.width (state : Control) (c : Char) : Nat :=
  match state with
  | .outside => if c = escapeChar then 0 else charWidth c
  | _ => 0

def widthFrom (state : Control) : List Char → Nat
  | [] => 0
  | c :: rest => state.width c + widthFrom (state.next c) rest

def width (text : List Char) : Nat := widthFrom .outside text

/-- A part of a line and the number of spaces behind it. -/
structure Part where
  text : List Char
  blanks : Nat
  deriving DecidableEq, Repr

def addChar (c : Char) : List Part → List Part
  | [] => [⟨[c], 0⟩]
  | p :: rest => ⟨c :: p.text, p.blanks⟩ :: rest

def addBlank : List Part → List Part
  | [] => [⟨[], 1⟩]
  | p :: rest => ⟨p.text, p.blanks + 1⟩ :: rest

/-- The words of a line with the spaces behind them; spaces at its start follow an empty word. -/
def wordsFrom (inBlanks : Bool) : List Char → List Part
  | [] => [⟨[], 0⟩]
  | c :: rest =>
    if c = ' ' then addBlank (wordsFrom true rest)
    else if inBlanks then ⟨[], 0⟩ :: addChar c (wordsFrom false rest)
    else addChar c (wordsFrom false rest)

/-- Cuts a word after each hyphen that has an alphanumeric character on both sides. -/
def cutAtHyphens (before : Option Char) : List Char → List (List Char)
  | [] => [[]]
  | [c] => [[c]]
  | c :: next :: rest =>
    if c = '-' ∧ before.any Unicode.isAlphanumeric ∧ Unicode.isAlphanumeric next then
      [c] :: cutAtHyphens (some c) (next :: rest)
    else extend c (cutAtHyphens (some c) (next :: rest))

/-- Cuts a text that is too wide. A new piece starts before a character that would pass the limit,
unless the piece is still empty; `used` columns of the first piece are taken. -/
def cutToWidth (limit used : Nat) (state : Control) : List Char → List (List Char)
  | [] => [[]]
  | c :: rest =>
    let w := state.width c
    if state = .outside ∧ c ≠ escapeChar ∧ 0 < used ∧ limit < used + w then
      [] :: extend c (cutToWidth limit w (state.next c) rest)
    else extend c (cutToWidth limit (used + w) (state.next c) rest)

/-- The spaces of a word stand behind the last of its pieces. -/
def withBlanks (blanks : Nat) : List (List Char) → List Part
  | [] => []
  | [last] => [⟨last, blanks⟩]
  | piece :: rest => ⟨piece, 0⟩ :: withBlanks blanks rest

def partsOf (limit : Nat) (word : Part) : List Part :=
  withBlanks word.blanks ((cutAtHyphens none word.text).flatMap (cutToWidth limit 0 .outside))

/-- Fills lines. A part starts a new line when it does not fit and the line already holds one. -/
def fill (limit used : Nat) (started : Bool) : List Part → List (List Part)
  | [] => [[]]
  | p :: rest =>
    let w := width p.text
    if started && limit < used + w then
      [] :: extend p (fill limit (w + p.blanks) true rest)
    else extend p (fill limit (used + w + p.blanks) true rest)

/-- The text of a line, less the spaces at its end. -/
def lineOf : List Part → List Char
  | [] => []
  | [last] => last.text
  | p :: rest => p.text ++ List.replicate p.blanks ' ' ++ lineOf rest

/-- The lines of one paragraph. -/
def wrap (limit : Nat) (paragraph : List Char) : List (List Char) :=
  (fill limit 0 false ((wordsFrom false paragraph).flatMap (partsOf limit))).map lineOf

end SchemaBindings.Text
