import Accrual.Text.Numeral
import Accrual.Text.Printable

/-!
# Quoted texts

A quoted text stands between two equal quotes. Inside, the quote and the backslash are escaped, line
feed, carriage return and tab have short escapes, and every other character that is not printable is
written by its number. The double quote is used only where it saves escapes: when the text holds a
single quote and no double one.
-/

namespace Accrual.Text

def singleQuote : Char := '\x27'

def doubleQuote : Char := '\x22'

def quoteFor (cs : List Char) : Char :=
  if cs.contains singleQuote && !cs.contains doubleQuote then doubleQuote else singleQuote

/-- The escape of a character by its number, in as many digits as its size asks for. -/
def numberEscape (c : Char) : List Char :=
  if c.toNat < 0x100 then '\\' :: 'x' :: hexadecimal 2 c.toNat
  else if c.toNat < 0x10000 then '\\' :: 'u' :: hexadecimal 4 c.toNat
  else '\\' :: 'U' :: hexadecimal 8 c.toNat

def escapeIn (quote c : Char) : List Char :=
  if c = quote ∨ c = '\\' then ['\\', c]
  else if c = '\n' then ['\\', 'n']
  else if c = '\r' then ['\\', 'r']
  else if c = '\t' then ['\\', 't']
  else if isPrintable c then [c]
  else numberEscape c

def quoted (cs : List Char) : List Char :=
  quoteFor cs :: cs.flatMap (escapeIn (quoteFor cs)) ++ [quoteFor cs]

end Accrual.Text
