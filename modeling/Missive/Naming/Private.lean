/-!
# Private names

A name that begins with two underscores, and does not end with two, is private to the class whose
code it stands in: it is written with the name of that class in front, from which underscores at the
start are left out. A class whose name consists of underscores has no private names.
-/

namespace Missive.Naming

def privateName (className name : String) : String :=
  if name.startsWith "__" && !name.endsWith "__" then
    match className.toList.dropWhile (· == '_') with
    | [] => name
    | stem => "_" ++ String.ofList stem ++ name
  else name

end Missive.Naming
