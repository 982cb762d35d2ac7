import ShardedSql.Text.Numeral
import ShardedSql.Url
import ShardedSql.Url.Host

/-!
# Reading URLs

An executable library for URLs.  User, password, query and fragment are read over.  Without two
slashes after the scheme there is no host, and everything up to the query is the path, except for
the schemes of the web, which always have a host.
-/

namespace ShardedSql.Url

/-! ## Schemes -/

/-- The scheme before the first colon, and what follows. -/
def scheme? (cs : List Char) : Option (String × List Char) :=
  match cs.span inScheme with
  | (first :: others, ':' :: rest) =>
      if first.isAlpha then some (String.ofList ((first :: others).map Char.toLower), rest)
      else none
  | _ => none

/-! ## Paths -/

/-- Whether a character is escaped in a segment. -/
def escapedInPath (c : Char) : Bool :=
  Text.isControlOrWide c || c ∈ [' ', '"', '<', '>', '\x60', '#', '?', '\x7b', '\x7d']

/-- Whether a segment stands for the current place. -/
def isSingleDot (segment : String) : Bool :=
  [".", "%2e"].any (Text.alike segment)

/-- Whether a segment stands for the place above. -/
def isDoubleDot (segment : String) : Bool :=
  ["..", ".%2e", "%2e.", "%2e%2e"].any (Text.alike segment)

/-- Resolves dots: one dot adds nothing and two dots take the last segment back; at the end they
leave an empty segment. -/
def settle : (settled : List String) → List String → List String
  | settled, [] => settled
  | settled, segment :: others =>
      let settled :=
        if isDoubleDot segment then settled.dropLast
        else if isSingleDot segment then settled
        else settled ++ [segment]
      if others.isEmpty && (isDoubleDot segment || isSingleDot segment) then settled ++ [""]
      else settle settled others

/-- The segments of a path without its first slash. -/
def segmentsOf (special : Bool) (cs : List Char) : List String :=
  let body := (cs.takeWhile (!endsPath ·)).map fun c => if isSlash special c then '/' else c
  settle [] ((Text.splitChars '/' body).map fun segment =>
    String.ofList (Text.percentEncode escapedInPath segment))

/-- Segments as they are written, each after a slash. -/
def pathText (segments : List String) : String :=
  String.join (segments.map ("/" ++ ·))

/-- The path after a host. -/
def pathAfterHost (special : Bool) : List Char → String
  | [] => pathText (if special then [""] else [])
  | c :: cs =>
      if isSlash special c then pathText (segmentsOf special cs)
      else if endsPath c && !special then pathText []
      else pathText (segmentsOf special (c :: cs))

/-- A path taken as it is. -/
def plainPath (cs : List Char) : String :=
  String.ofList (Text.percentEncode Text.isControlOrWide (cs.takeWhile (!endsPath ·)))

/-! ## Hosts and ports -/

/-- What follows the last `@` of a list, and what stands before it. -/
def afterLastAt (cs : List Char) : Option (List Char × List Char) :=
  match cs.reverse.span (· != '@') with
  | (after, '@' :: before) => some (before.reverse, after.reverse)
  | _ => none

/-- Drops user and password.  They need a host after them. -/
def dropUser? (special : Bool) (cs : List Char) : Option (List Char) :=
  let (authority, rest) := cs.span (!endsAuthority special ·)
  match afterLastAt authority with
  | none => some cs
  | some (user, host) =>
      let lacksHost := if user.isEmpty then host.isEmpty && !rest.isEmpty
        else host.isEmpty && user != [':']
      if lacksHost then none else some (host ++ rest)

/-- Cuts off the host: everything up to a colon outside brackets or to the path. -/
def spanHost (special : Bool) : (inBrackets : Bool) → List Char → List Char × List Char
  | _, [] => ([], [])
  | inBrackets, c :: cs =>
      if (c == ':' && !inBrackets) || endsAuthority special c then ([], c :: cs)
      else
        let inBrackets := if c == '[' then true else if c == ']' then false else inBrackets
        let (host, rest) := spanHost special inBrackets cs
        (c :: host, rest)

/-- The number after a host and what follows; one that the scheme implies counts as none. -/
def tcpPort? (scheme : String) : List Char → Option (Option Nat × List Char)
  | ':' :: cs =>
      let (digits, rest) := cs.span Char.isDigit
      let stops := match rest with
        | [] => true
        | c :: _ => c ∈ ['/', '\\', '?', '#']
      if !stops then none
      else if digits.isEmpty then some (none, rest)
      else do
        let n ← digitsValue? 10 digits
        if 65535 < n then none
        else some (if webPorts.lookup scheme == some n then none else some n, rest)
  | cs => some (none, cs)

/-- A URL after its two slashes. -/
def afterSlashes? (scheme : String) (cs : List Char) : Option Url := do
  let special := isSpecial scheme
  let cs ← dropUser? special cs
  let (hostText, rest) := spanHost special false cs
  if hostText.isEmpty && (special || rest.head? == some ':') then none
  let host ← if special then domain? hostText else plainHost? hostText
  let (tcpPort, rest) ← tcpPort? scheme rest
  return { scheme, tcpPort, path := pathAfterHost special rest
           host := if host.isEmpty then none else some host }

/-! ## Files -/

/-- The path of a file has one slash at its start. -/
def filePath (cs : List Char) : String :=
  let segments := segmentsOf true cs
  let kept := segments.dropWhile (·.isEmpty)
  pathText (if kept.isEmpty then [""] else kept)

/-- The URL of a file. -/
def file? (cs : List Char) : Option Url :=
  match cs.span (isSlash true) with
  | (_ :: _ :: more, rest) => do
      let (hostText, rest) := if more.isEmpty then rest.span (!endsAuthority true ·) else ([], rest)
      let host ← if hostText.isEmpty then some "localhost" else domain? hostText
      return { scheme := "file", tcpPort := none, path := filePath (rest.dropWhile (isSlash true))
               host := if host == "localhost" then none else some host }
  | (_, rest) => some { scheme := "file", tcpPort := none, path := filePath rest, host := none }

/-! ## URLs -/

/-- Reads a URL. -/
def parse? (s : String) : Option Url := do
  let cs := (((s.toList.dropWhile isEdge).reverse.dropWhile isEdge).reverse).filter
    (!isOverlooked ·)
  let (scheme, rest) ← scheme? cs
  if scheme == "file" then file? rest
  else if isSpecial scheme then afterSlashes? scheme (rest.dropWhile (isSlash true))
  else
    match rest with
    | '/' :: '/' :: rest => afterSlashes? scheme rest
    | '/' :: rest =>
        return { scheme, host := none, tcpPort := none, path := pathText (segmentsOf false rest) }
    | rest => return { scheme, host := none, tcpPort := none, path := plainPath rest }

end ShardedSql.Url
