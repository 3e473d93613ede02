import Residual.Text.Hidden

/-!
# Quoted text

Messages show a piece of text between double quotes, written so that it stays on one line
and shows every character. The double quote and the backslash get a backslash, the usual
control characters have a letter, and a hidden character is written by its code point in
hexadecimal digits between braces.
-/

namespace Residual

namespace Quoted

/-- The double quote, which ends a quoted text. -/
def quote : Char := '\x22'

/-- The backslash, which announces an escape. -/
def backslash : Char := '\x5c'

/-- The letter that stands for a character behind a backslash, if it has one. -/
def letter? (value : Char) : Option Char :=
  if value = quote ∨ value = backslash then some value
  else match value with
    | '\x00' => some '0'
    | '\t' => some 't'
    | '\r' => some 'r'
    | '\n' => some 'n'
    | _ => none

/-- One character of a quoted text. -/
def character (value : Char) : List Char :=
  match letter? value with
  | some letter => [backslash, letter]
  | none =>
      if isHidden value then
        [backslash, 'u', '\x7b'] ++ Nat.toDigits 16 value.toNat ++ ['\x7d']
      else [value]

end Quoted

/-- A text between double quotes, with every character visible. -/
def quoted (text : String) : String :=
  String.ofList (Quoted.quote :: (text.toList.flatMap Quoted.character ++ [Quoted.quote]))

end Residual
