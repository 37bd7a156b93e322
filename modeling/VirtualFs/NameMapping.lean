import VirtualFs.Dict

namespace VirtualFs

/-- Replace a text wherever it occurs, from left to right and without overlaps. The first argument
    counts the characters that still belong to the last occurrence found. -/
def substitute (old new : List Char) : Nat → List Char → List Char
  | _, [] => []
  | skip + 1, _ :: rest => substitute old new skip rest
  | 0, c :: rest =>
    if old.isPrefixOf (c :: rest) then new ++ substitute old new (old.length - 1) rest
    else c :: substitute old new 0 rest

/-- How the names that a backend uses are changed before they are shown. -/
structure NameMapping where
  substitutions : Dict String

namespace NameMapping

/-- Show every name as it is. -/
def identity : NameMapping := ⟨.empty⟩

/-- A separator inside a name would read as two steps of a path, so a bar stands in for it. -/
def standard : NameMapping := ⟨.ofList [("/", "|")]⟩

/-- Carry out one substitution. There is nothing to find in place of an empty text. -/
def substituteOne (name : String) (substitution : String × String) : String :=
  if substitution.1 = "" then name
  else .ofList (substitute substitution.1.toList substitution.2.toList 0 name.toList)

/-- The shown form of a name: every substitution in the order of the keys, each applied to what the
    one before it left. -/
def apply (mapping : NameMapping) (name : String) : String :=
  mapping.substitutions.entries.foldl substituteOne name

end NameMapping

end VirtualFs
