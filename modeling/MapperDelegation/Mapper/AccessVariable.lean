import MapperDelegation.Text.Lowercase

set_option autoImplicit false

/-!
# Access variables

Generated code reaches a used unit through a variable. Unless the declaration names one, the
variable is derived from the simple name of the unit.

## Main definitions

* `accessVariable` — the variable derived from a simple name.
-/

namespace MapperDelegation

open Text

/-- The simple name with its first character in lower case. A name whose first two characters
are both upper case is kept, and the empty name gives `mapper`. -/
def accessVariable (simpleName : String) : String :=
  match simpleName.toList with
  | [] => "mapper"
  | first :: rest =>
    if isUppercase first && rest.head?.any isUppercase then simpleName
    else String.ofList (lowercase first ++ rest)

/-- The last segment of a qualified name, the segments being separated by dots. -/
def simpleName (qualifiedName : String) : String :=
  String.ofList (qualifiedName.toList.reverse.takeWhile (· ≠ '.')).reverse

end MapperDelegation
