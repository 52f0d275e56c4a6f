/-
# Quoted text

Text between double quotes, with everything that would not be seen as itself
written as an escape: a few controls by letter, other characters by their
code point.

Key definitions: `Quoted.escape`, `Quoted.quote`.
-/
import Profiler.Error
import Profiler.Text.Printable

namespace Profiler
namespace Quoted

/-- A character as it stands between quotes. -/
def escape (c : Char) : String :=
  if c = '\x00' then "\\0"
  else if c = '\t' then "\\t"
  else if c = '\r' then "\\r"
  else if c = '\n' then "\\n"
  else if c = '"' then "\\\""
  else if c = '\\' then "\\\\"
  else if isShown c then String.singleton c
  else "\\u\x7b" ++ hexDigits c.toNat ++ "\x7d"

def quote (s : String) : String := "\"" ++ String.join (s.toList.map escape) ++ "\""

end Quoted
end Profiler
