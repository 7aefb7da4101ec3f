import MetricRelay.Text.Numeral
import MetricRelay.Text.Printable

namespace MetricRelay.Text

-- A character as it stands in a quotation that shows every character.
def shown (c : Char) : List Char :=
  if c = '"' then ['\\', '"']
  else if c = '\\' then ['\\', '\\']
  else if c = '\t' then ['\\', 't']
  else if c = '\n' then ['\\', 'n']
  else if c = '\r' then ['\\', 'r']
  else if c = Char.ofNat 0 then ['\\', '0']
  else if isPrintable c then [c]
  else ['\\', 'u', '\x7b'] ++ Numeral.write 16 c.toNat ++ ['\x7d']

-- The text in quotes.
def quoted (cs : List Char) : List Char :=
  '"' :: (cs.flatMap shown ++ ['"'])

end MetricRelay.Text
