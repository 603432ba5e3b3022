/-!
# Type URLs

A message that holds any other one names the type of its content by a URL, the last part of which is
the full name of the type.
-/

namespace Missive.TypeUrl

/-- What type URLs start with, unless told otherwise. -/
def defaultHost : String := "type.googleapis.com"

/-- The URL of a type. Slashes at the end of the host do not count. -/
def ofName (host name : String) : String :=
  String.ofList (host.toList.reverse.dropWhile (· == '/')).reverse ++ "/" ++ name

def typeName (url : String) : String :=
  String.ofList (url.toList.reverse.takeWhile (· != '/')).reverse

end Missive.TypeUrl
