/-!
# Request targets

The target of a request is a path, perhaps with a query or a fragment behind it, and perhaps with
a scheme and an authority in front: `/a/b?q`, `http://host:80/a/b`. Requests are routed by the
path alone.
-/

namespace Tenancy.Target

def isSchemeChar (c : Char) : Bool := c.isAlphanum || c = '+' || c = '-' || c = '.'

/-- A query or a fragment starts with the character. -/
def endsPath (c : Char) : Bool := c = '?' || c = '#'

/-- A target without the scheme and the authority that it may start with. -/
def withoutAuthority (cs : List Char) : List Char :=
  match cs.dropWhile isSchemeChar with
  | ':' :: '/' :: '/' :: rest => rest.dropWhile fun c => c ≠ '/' && !endsPath c
  | _ => cs

/-- The path of a request target. -/
def path (target : String) : String :=
  String.ofList ((withoutAuthority target.toList).takeWhile fun c => !endsPath c)

end Tenancy.Target
