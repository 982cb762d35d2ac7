import Mathlib.Data.List.Basic
import Mathlib.Data.List.TakeWhile
import ShardedSql.Url

/-!
# Libraries for URLs

What is known of a library that reads URLs.  After two slashes stands the authority, up to a slash,
a question mark or a hash.  User and password stand before its last `@`, and nothing of them is left
in what is read.  Without the slashes the remainder is a path as it stands, except for the schemes
of the web, which are read as if the slashes stood there, and for files.

Main results:

- Definition `UrlLibrary.Lawful`: what is known of a library.
- Theorem `exists_isCut`: what stands behind a login is cut at the last `@` of the authority, and
  the login is in front of it.
- Theorem `UrlLibrary.Lawful.exists_parse?`: after two slashes the login does not matter.
-/

namespace ShardedSql

namespace Url

/-! ## Schemes and logins -/

/-- The text is a scheme, as it may be written before a colon. -/
structure IsScheme (s : String) : Prop where
  first : ∃ c ∈ s.toList.head?, c.isAlpha = true
  all : ∀ c ∈ s.toList, inScheme c = true

/-- A scheme as it is read, in lower case. -/
def lowered (scheme : String) : String :=
  String.ofList (scheme.toList.map Char.toLower)

/-- Whether a character may stand in a name or a password: ASCII letters and digits, and whatever is
beyond ASCII. -/
def inCredential (c : Char) : Bool :=
  c.isAlphanum || 0x7F < c.toNat

/-- The text can be followed by an `@` of the authority: it starts with a name, and the authority
does not end in it. -/
structure IsUserInfo (special : Bool) (info : String) : Prop where
  first : ∃ c ∈ info.toList.head?, inCredential c = true
  all : ∀ c ∈ info.toList, endsAuthority special c = false

/-- Two texts are what stands behind the last `@` of the authority: the server, and what follows the
authority. -/
structure IsCut (special : Bool) (server tail : String) : Prop where
  server : ∀ c ∈ server.toList, c ≠ '@' ∧ endsAuthority special c = false
  tail : ∀ c ∈ tail.toList.head?, endsAuthority special c = true

/-- Nothing of the server is left when characters are cut off and overlooked. -/
def IsBlank (server tail : String) : Prop :=
  (∀ c ∈ server.toList, isOverlooked c = true) ∨
    (tail = "" ∧ ∀ c ∈ server.toList, isEdge c = true)

/-- The text is read as it stands in a path without slashes: it starts with no slash, and has only
graphic characters of ASCII, none of which ends the path. -/
structure IsPlain (s : String) : Prop where
  first : ∃ c ∈ s.toList.head?, c ≠ '/'
  all : ∀ c ∈ s.toList, 0x20 < c.toNat ∧ c.toNat < 0x7F ∧ endsPath c = false

end Url

open Url

/-! ## Lawful libraries -/

/-- What is known of a library that reads URLs. -/
structure UrlLibrary.Lawful (parse? : UrlLibrary) : Prop where
  /-- User info ends at the last `@` of the authority; with it the URL is read as without it. -/
  userInfo {scheme info server tail : String} : IsScheme scheme → lowered scheme ≠ "file" →
    IsUserInfo (isSpecial (lowered scheme)) info → IsCut (isSpecial (lowered scheme)) server tail →
    ¬ IsBlank server tail →
      parse? (scheme ++ "://" ++ info ++ "@" ++ server ++ tail) =
        parse? (scheme ++ "://" ++ server ++ tail)
  /-- User info needs a server behind it. -/
  needsServer {scheme info server tail : String} : IsScheme scheme → lowered scheme ≠ "file" →
    IsUserInfo (isSpecial (lowered scheme)) info → IsCut (isSpecial (lowered scheme)) server tail →
    IsBlank server tail →
      parse? (scheme ++ "://" ++ info ++ "@" ++ server ++ tail) = none
  /-- The URL of a file has no user info. -/
  file {scheme info text : String} : IsScheme scheme → lowered scheme = "file" →
    IsUserInfo true info → parse? (scheme ++ "://" ++ info ++ "@" ++ text) = none
  /-- The schemes of the web are read as if the slashes stood there. -/
  web {scheme text : String} : IsScheme scheme →
    (webPorts.lookup (lowered scheme)).isSome = true →
      parse? (scheme ++ ":" ++ text) = parse? (scheme ++ "://" ++ text)
  /-- For all other schemes the remainder is a path, and there is no host. -/
  path {scheme : String} (rest : String) : IsScheme scheme → isSpecial (lowered scheme) = false →
    ∃ back, ∀ front, IsPlain front →
      parse? (scheme ++ ":" ++ front ++ rest) =
        some { scheme := lowered scheme, host := none, tcpPort := none, path := front ++ back }

/-! ## The end of user info -/

namespace Url

variable {special : Bool} {info : String}

/-- User info may go on up to a later `@`. -/
theorem IsUserInfo.append (h : IsUserInfo special info) {more : String}
    (hmore : ∀ c ∈ more.toList, endsAuthority special c = false) :
    IsUserInfo special (info ++ "@" ++ more) := by
  obtain ⟨c, hc, hcredential⟩ := h.first
  refine ⟨⟨c, ?_, hcredential⟩, fun c hc => ?_⟩
  · rw [String.toList_append, String.toList_append, List.append_assoc]
    exact List.mem_head?_append_of_mem_head? hc
  · simp only [String.toList_append, List.mem_append] at hc
    rcases hc with (hc | hc) | hc
    · exact h.all c hc
    · obtain rfl : c = '@' := by simpa using hc
      cases special <;> rfl
    · exact hmore c hc

/-- A text that ends the authority somewhere is cut behind the last `@` of it.  What stands before
that `@` goes on from any login. -/
theorem exists_isCut (special : Bool) (rest : String) :
    ∃ server tail, IsCut special server tail ∧ ∀ login, IsUserInfo special login →
      ∃ info, IsUserInfo special info ∧
        login ++ "@" ++ rest = info ++ "@" ++ server ++ tail := by
  let authority := rest.toList.takeWhile (!endsAuthority special ·)
  let tail := rest.toList.dropWhile (!endsAuthority special ·)
  have hrest : rest = String.ofList (authority ++ tail) := by
    rw [List.takeWhile_append_dropWhile, String.ofList_toList]
  have hauthority : ∀ c ∈ authority, endsAuthority special c = false := fun c hc => by
    simpa using List.mem_takeWhile_imp hc
  have htail : ∀ c ∈ tail.head?, endsAuthority special c = true := fun c hc => by
    have hkept := List.head?_dropWhile_not (!endsAuthority special ·) rest.toList
    rw [show (rest.toList.dropWhile (!endsAuthority special ·)).head? = some c from hc] at hkept
    simpa using hkept
  by_cases hat : '@' ∈ authority
  · obtain ⟨after, before, hsplit, hafter⟩ :=
      List.eq_append_cons_of_mem (List.mem_reverse.mpr hat)
    have hparts : authority = before.reverse ++ '@' :: after.reverse := by
      rw [← List.reverse_reverse authority, hsplit]
      simp
    rw [hparts] at hauthority
    refine ⟨String.ofList after.reverse, String.ofList tail, ⟨fun c hc => ?_, ?_⟩,
      fun login hlogin => ⟨login ++ "@" ++ String.ofList before.reverse, ?_, ?_⟩⟩
    · rw [String.toList_ofList] at hc
      refine ⟨?_, hauthority c (by simp [List.mem_reverse.mp hc])⟩
      rintro rfl
      exact hafter (List.mem_reverse.mp hc)
    · rwa [String.toList_ofList]
    · refine hlogin.append fun c hc => hauthority c ?_
      rw [String.toList_ofList] at hc
      exact List.mem_append_left _ hc
    · rw [hrest, hparts, ← String.toList_inj]
      simp
  · refine ⟨String.ofList authority, String.ofList tail, ⟨fun c hc => ?_, ?_⟩,
      fun login hlogin => ⟨login, hlogin, ?_⟩⟩
    · rw [String.toList_ofList] at hc
      refine ⟨?_, hauthority c hc⟩
      rintro rfl
      exact hat hc
    · rwa [String.toList_ofList]
    · rw [hrest, ← String.toList_inj]
      simp

end Url

/-- After two slashes the login does not matter. -/
theorem UrlLibrary.Lawful.exists_parse? {parse? : UrlLibrary} (h : parse?.Lawful) {scheme : String}
    (hscheme : IsScheme scheme) (rest : String) :
    ∃ u, ∀ login, IsUserInfo (isSpecial (lowered scheme)) login →
      parse? (scheme ++ "://" ++ login ++ "@" ++ rest) = u := by
  by_cases hfile : lowered scheme = "file"
  · refine ⟨none, fun login hlogin => h.file hscheme hfile ?_⟩
    rwa [hfile] at hlogin
  obtain ⟨server, tail, hcut, hcases⟩ := exists_isCut (isSpecial (lowered scheme)) rest
  have hinfo : ∀ login, IsUserInfo (isSpecial (lowered scheme)) login →
      ∃ info, IsUserInfo (isSpecial (lowered scheme)) info ∧
        scheme ++ "://" ++ login ++ "@" ++ rest =
          scheme ++ "://" ++ info ++ "@" ++ server ++ tail := by
    intro login hlogin
    obtain ⟨info, hinfo, hsame⟩ := hcases login hlogin
    refine ⟨info, hinfo, ?_⟩
    calc scheme ++ "://" ++ login ++ "@" ++ rest
        = scheme ++ "://" ++ (login ++ "@" ++ rest) := by simp only [String.append_assoc]
      _ = scheme ++ "://" ++ info ++ "@" ++ server ++ tail := by
          rw [hsame]
          simp only [String.append_assoc]
  by_cases hblank : IsBlank server tail
  · refine ⟨none, fun login hlogin => ?_⟩
    obtain ⟨info, hinfo, hsame⟩ := hinfo login hlogin
    rw [hsame, h.needsServer hscheme hfile hinfo hcut hblank]
  · refine ⟨parse? (scheme ++ "://" ++ server ++ tail), fun login hlogin => ?_⟩
    obtain ⟨info, hinfo, hsame⟩ := hinfo login hlogin
    rw [hsame, h.userInfo hscheme hfile hinfo hcut hblank]

end ShardedSql
