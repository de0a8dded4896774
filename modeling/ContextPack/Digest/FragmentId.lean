import ContextPack.Digest.Sha256
import ContextPack.Text.Utf8

/-!
# Fragment identifiers

A fragment is named by sixteen hexadecimal digits that depend on its path and
on the start of its content.
-/

namespace ContextPack

/-- How many characters of the content enter the identifier. -/
def fragmentIdSpan : Nat := 1000

/-- The identifier of a fragment: path, a zero byte and the content's start,
digested. -/
def fragmentId (path content : String) : String :=
  let message := Utf8.ofString path ++ 0 :: Utf8.encode (content.toList.take fragmentIdSpan)
  String.ofList ((Sha256.hexadecimal (Sha256.digest message)).take 16)

end ContextPack
