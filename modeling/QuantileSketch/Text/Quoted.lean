import QuantileSketch.Text.Unprintable

/-!
# Quoted text

A text between double quotes, in which a quote, a backslash and every character without a picture
of its own are escaped: the usual control characters by a letter, all others by their code point
in hexadecimal digits.
-/
namespace QuantileSketch.Text

/-- The digits of a number in base sixteen, in lower case. -/
def hexDigits (n : Nat) : String :=
  String.ofList (Nat.toDigits 16 n)

/-- How a character is written between quotes. -/
def escape (c : Char) : String :=
  match c with
  | '\x00' => "\\0"
  | '\t' => "\\t"
  | '\n' => "\\n"
  | '\r' => "\\r"
  | '\"' => "\\\""
  | '\\' => "\\\\"
  | c => if isPrintable c then c.toString else "\\u\x7b" ++ hexDigits c.toNat ++ "\x7d"

/-- A text between quotes. -/
def quote (s : String) : String :=
  "\"" ++ String.join (s.toList.map escape) ++ "\""

end QuantileSketch.Text
