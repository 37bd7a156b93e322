import VirtualFs.Text.Blank
import VirtualFs.Text.Truncate

namespace VirtualFs.Secret

/-- The letters of base 64 in both its alphabets. -/
def isTokenChar (c : Char) : Bool :=
  c.isAlphanum || c = '+' || c = '/' || c = '=' || c = '_' || c = '-'

/-- The letters of a name or a random key. -/
def isWordChar (c : Char) : Bool :=
  c.isAlphanum || c = '_' || c = '-'

/-- Three long parts with points between them, as in a signed web token. -/
def isSignedToken (text : List Char) : Bool :=
  let parts := text.splitOn '.'
  parts.length = 3 && parts.all (fun part => 10 < Text.byteLength part && part.all isTokenChar)

/-- How well-known services begin their keys. -/
def keyMarks : List String :=
  ["sk-", "sk_live_", "sk_test_", "ghp_", "gho_", "xoxb-", "xoxp-", "AKIA", "eyJ"]

/-- A well-known beginning with enough behind it. -/
def isMarkedKey (text : List Char) : Bool :=
  keyMarks.any (fun mark =>
    mark.toList.isPrefixOf text && mark.utf8ByteSize + 10 < Text.byteLength text)

/-- A word in which few characters come back: the different ones make up more than half of it, and
    there are more than fifteen. -/
def isRandom (text : List Char) : Bool :=
  let kinds := text.eraseDups.length
  text.all isWordChar && text.length < 2 * kinds && 15 < kinds

/-- Whether a text has the looks of a secret. -/
def isLikely (text : String) : Bool :=
  let text := Text.trim text.toList
  isSignedToken text || isMarkedKey text || (32 ≤ Text.byteLength text && isRandom text)

end VirtualFs.Secret
