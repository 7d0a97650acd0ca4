/-! Text between double quotes in which quotes, backslashes and control characters are escaped. -/
namespace UpsertSql.Text

/-- A control character without a letter of its own is written by its number in hexadecimal. -/
def escapeChar (c : Char) : List Char :=
  if c = '"' then ['\\', '"']
  else if c = '\\' then ['\\', '\\']
  else if c = '\n' then ['\\', 'n']
  else if c = '\r' then ['\\', 'r']
  else if c = '\t' then ['\\', 't']
  else if c = '\x00' then ['\\', '0']
  else if c.val < 0x20 ∨ 0x7f ≤ c.val ∧ c.val < 0xa0 then
    "\\u\x7b".toList ++ Nat.toDigits 16 c.toNat ++ ['\x7d']
  else [c]

def escaped (s : String) : String :=
  String.ofList ('"' :: s.toList.flatMap escapeChar ++ ['"'])

end UpsertSql.Text
