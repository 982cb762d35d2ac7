/-!
# URLs

A URL is known as far as it is shown: scheme, host with its number, and path.  User, password, query
and fragment are left out.  URLs are read by a library; what its users rely on is said in terms of
the characters that part a URL.
-/

namespace ShardedSql

/-- A URL without user, password, query and fragment. -/
structure Url where
  scheme : String
  host : Option String
  /-- None also if it is the one that the scheme implies. -/
  tcpPort : Option Nat
  path : String
  deriving DecidableEq, Repr

/-- A library that reads URLs. -/
abbrev UrlLibrary := String → Option Url

namespace Url

/-! ## Parts of a URL -/

/-- The schemes of the web, with the ports they imply. -/
def webPorts : List (String × Nat) :=
  [("http", 80), ("https", 443), ("ws", 80), ("wss", 443), ("ftp", 21)]

/-- Whether a scheme has its own rules for hosts and paths. -/
def isSpecial (scheme : String) : Bool :=
  scheme == "file" || (webPorts.lookup scheme).isSome

/-- Whether a character may stand in a scheme. -/
def inScheme (c : Char) : Bool :=
  c.isAlphanum || c ∈ ['+', '-', '.']

/-- Whether a character separates segments of a path. -/
def isSlash (special : Bool) (c : Char) : Bool :=
  c == '/' || (special && c == '\\')

/-- Whether a path ends here. -/
def endsPath (c : Char) : Bool := c == '?' || c == '#'

/-- Whether the part with user and host ends here. -/
def endsAuthority (special : Bool) (c : Char) : Bool :=
  isSlash special c || endsPath c

/-- Whether a character is cut off at both ends of a URL. -/
def isEdge (c : Char) : Bool := c.toNat ≤ 0x20

/-- Whether a character is overlooked in a URL. -/
def isOverlooked (c : Char) : Bool := c ∈ ['\t', '\n', '\r']

/-! ## Shown URLs -/

/-- A URL as scheme, host with its number, and path.  The two slashes stand there with or without
a host. -/
def render (u : Url) : String :=
  let number := match u.tcpPort with
    | some n => ":" ++ toString n
    | none => ""
  u.scheme ++ "://" ++ u.host.getD "" ++ number ++ u.path

end Url

end ShardedSql
