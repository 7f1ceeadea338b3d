import AtomLog.Text.Printable
/-!
Texts quoted for messages: a backslash escapes what would end the quotation or be invisible.
-/
namespace AtomLog.Text

def hexDigits (n : Nat) : String := String.ofList (Nat.toDigits 16 n)

/-- The written form of a character between double quotes. -/
def quoteChar (c : Char) : String :=
  match c with
  | '\x00' => "\\0"
  | '\t' => "\\t"
  | '\r' => "\\r"
  | '\n' => "\\n"
  | '\\' => "\\\\"
  | '"' => "\\\""
  | c =>
    if isGraphemeExtend c || !isPrintable c then
      "\\u\x7b" ++ hexDigits c.toNat ++ "\x7d"
    else c.toString

/-- A string value or a file name in a message. -/
def quoted (s : String) : String := "\"" ++ String.join (s.toList.map quoteChar) ++ "\""

end AtomLog.Text
