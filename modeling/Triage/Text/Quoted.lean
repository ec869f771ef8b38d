import Triage.Text.Unprintable

/-!
# Quoted text

A text or a single character between quotes, with its quote, the backslash, line ends, tab and
NUL escaped and every character without a visible glyph spelled out as `\u{…}`.
-/

namespace Triage.Text

def spellOut (c : Char) : List Char :=
  ['\\', 'u', '{'] ++ Nat.toDigits 16 c.toNat ++ ['}']

/-- One character of a text between quotes `quote`; the other kind of quote stays as it is. -/
def escape (quote c : Char) : List Char :=
  if c = '\x00' then ['\\', '0']
  else if c = '\t' then ['\\', 't']
  else if c = '\r' then ['\\', 'r']
  else if c = '\n' then ['\\', 'n']
  else if c = '\\' then ['\\', '\\']
  else if c = quote then ['\\', quote]
  else if isSpelledOut c then spellOut c
  else [c]

def quoteChars (quote : Char) (cs : List Char) : List Char :=
  quote :: cs.flatMap (escape quote) ++ [quote]

def quoted (s : String) : String := String.ofList (quoteChars '"' s.toList)

def quotedChar (c : Char) : String := String.ofList (quoteChars '\'' [c])

/-- A bracketed list of quoted texts. -/
def quotedList (ss : List String) : String :=
  "[" ++ ", ".intercalate (ss.map quoted) ++ "]"

end Triage.Text
