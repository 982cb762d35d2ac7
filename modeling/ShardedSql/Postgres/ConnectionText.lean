import ShardedSql.Text.Blank
import ShardedSql.Text.Numeral
import ShardedSql.Url.Host

/-!
# Connection texts

The text that tells where a server is comes in two forms: as a URL with the scheme `postgres` or
`postgresql`, or as words of the form `key=value`.  Either gives settings, which are known by key.
-/

namespace ShardedSql.Postgres

/-- A setting: key and value. -/
abbrev Setting := String × String

/-! ## Words -/

/-- A value up to its closing quote; a backslash takes the next character as it is. -/
def quotedValue? : List Char → Option (List Char × List Char)
  | [] => none
  | '\'' :: cs => some ([], cs)
  | '\\' :: c :: cs => (quotedValue? cs).map fun (value, rest) => (c :: value, rest)
  | c :: cs => (quotedValue? cs).map fun (value, rest) => (c :: value, rest)

/-- A value up to a blank; a backslash takes the next character as it is. -/
def bareValue : List Char → List Char × List Char
  | [] => ([], [])
  | ['\\'] => ([], [])
  | '\\' :: c :: cs =>
      let (value, rest) := bareValue cs
      (c :: value, rest)
  | c :: cs =>
      if Text.isBlank c then ([], c :: cs)
      else
        let (value, rest) := bareValue cs
        (c :: value, rest)

/-- A value, quoted or not. -/
def value? : List Char → Option (List Char × List Char)
  | '\'' :: cs => quotedValue? cs
  | cs =>
      let (value, rest) := bareValue cs
      if value.isEmpty then none else some (value, rest)

/-- Whether a character may stand in a key. -/
def inKey (c : Char) : Bool := !Text.isBlank c && c != '='

/-- At most `limit` words; a missing key ends them. -/
def words? : (limit : Nat) → List Char → Option (List Setting)
  | 0, _ => some []
  | limit + 1, cs =>
      match (cs.dropWhile Text.isBlank).span inKey with
      | ([], _) => some []
      | (key, rest) =>
          match rest.dropWhile Text.isBlank with
          | '=' :: rest => do
              let (value, rest) ← value? (rest.dropWhile Text.isBlank)
              return (String.ofList key, String.ofList value) :: (← words? limit rest)
          | _ => none

/-! ## URLs -/

/-- The part before the first character that satisfies `stops`, and the part from there on, if
there is such a character. -/
def spanUntil (stops : Char → Bool) (cs : List Char) : Option (List Char × List Char) :=
  match cs.span (!stops ·) with
  | (_, []) => none
  | found => some found

/-- The user before an `@`, and what follows. -/
def userSettings? (cs : List Char) : Option (List Setting × List Char) :=
  match spanUntil (· == '@') cs with
  | none => some ([], cs)
  | some (credentials, rest) => do
      let user ← Text.percentDecoded? (credentials.takeWhile (· != ':'))
      return ([("user", user)], rest.drop 1)

/-- A host that is a path or a text. -/
def hostSetting? (cs : List Char) : Option Setting :=
  match Text.percentDecode cs with
  | 0x2F :: _ => some ("host", "/")
  | bs => (Text.ofBytes? bs).map fun host => ("host", host)

/-- Host and number of one server. -/
def serverSettings? : List Char → Option (List Setting)
  | '[' :: cs => do
      let (host, rest) ← spanUntil (· == ']') cs
      let number ← match rest.drop 1 with
        | [] => some "5432".toList
        | ':' :: number => some number
        | _ => none
      return [← hostSetting? host, ("port", ← Text.percentDecoded? number)]
  | cs => do
      let (host, rest) := cs.span (· != ':')
      let number := if rest.isEmpty then "5432".toList else rest.drop 1
      return [← hostSetting? host, ("port", ← Text.percentDecoded? number)]

/-- The servers, separated by commas. -/
def serversSettings? (cs : List Char) : Option (List Setting) :=
  if cs.isEmpty then some []
  else ((Text.splitChars ',' cs).mapM serverSettings?).map List.flatten

/-- A setting of a query. -/
def querySetting? (cs : List Char) : Option Setting := do
  let (key, value) ← spanUntil (· == '=') cs
  let key ← Text.percentDecoded? key
  if key == "host" then hostSetting? (value.drop 1)
  else return (key, ← Text.percentDecoded? (value.drop 1))

/-- At most `limit` settings of a query, each up to an ampersand after its equals sign. -/
def querySettings? : (limit : Nat) → List Char → Option (List Setting)
  | 0, _ => some []
  | _, [] => some []
  | limit + 1, cs => do
      let (key, rest) ← spanUntil (· == '=') cs
      let (value, others) := rest.span (· != '&')
      return (← querySetting? (key ++ value)) :: (← querySettings? limit (others.drop 1))

/-- The settings of a URL after its scheme. -/
def urlSettings? (cs : List Char) : Option (List Setting) := do
  let (user, cs) ← userSettings? cs
  let (servers, cs) := cs.span fun c => c != '/' && c != '?'
  let (database, cs) := match cs with
    | '/' :: cs => cs.span (· != '?')
    | cs => ([], cs)
  let name ← Text.percentDecoded? database
  let servers ← serversSettings? servers
  let query ← querySettings? cs.length (cs.drop 1)
  return user ++ servers ++ (if name.isEmpty && database.isEmpty then [] else [("dbname", name)]) ++
    query

/-- The settings of a connection text. -/
def settings? (text : String) : Option (List Setting) :=
  let cs := text.toList
  let schemes := ["postgres://".toList, "postgresql://".toList]
  match schemes.find? (·.isPrefixOf cs) with
  | some scheme => urlSettings? (cs.drop scheme.length)
  | none => words? cs.length cs

/-! ## Settings -/

/-- Whether a text is the number of a server; the empty text stands for the usual one. -/
def isServerNumber (text : String) : Bool :=
  text.isEmpty || (Text.readUnsigned 65535 text).isOk

/-- Whether a text is an address of four bytes or eight words. -/
def isAddress (text : String) : Bool :=
  (Url.wordsOfBytes? text.toList).isSome || (Url.eightWords? text.toList).isSome

/-- Keys whose value is one of a few words. -/
def choices : List (String × List String) :=
  [("sslmode", ["disable", "prefer", "require"]),
   ("sslnegotiation", ["postgres", "direct"]),
   ("target_session_attrs", ["any", "read-write", "read-only"]),
   ("channel_binding", ["disable", "prefer", "require"]),
   ("load_balance_hosts", ["disable", "random"])]

/-- Whether a setting is known and its value suits it. -/
def isValid : Setting → Bool
  | (key, value) =>
      if key ∈ ["user", "password", "dbname", "options", "application_name", "host"] then true
      else if key == "port" then (Text.split ',' value).all isServerNumber
      else if key == "hostaddr" then (Text.split ',' value).all isAddress
      else if key ∈ ["connect_timeout", "tcp_user_timeout", "keepalives_idle",
          "keepalives_interval"] then (Text.readInt64 value).isOk
      else if key == "keepalives" then (Text.readNat64 value).isOk
      else if key == "keepalives_retries" then (Text.readUnsigned (Nat.pow 2 32 - 1) value).isOk
      else
        match choices.lookup key with
        | some words => value ∈ words
        | none => false

/-- Whether a connection can be set up from a text: all settings are valid, and the last database
given has a name. -/
def isUsable (text : String) : Bool :=
  match settings? text with
  | none => false
  | some settings =>
      settings.all isValid &&
        match settings.reverse.lookup "dbname" with
        | some name => !name.isEmpty
        | none => false

end ShardedSql.Postgres
