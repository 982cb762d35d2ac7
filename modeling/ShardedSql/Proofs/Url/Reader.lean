import Mathlib.Data.List.TakeDrop
import ShardedSql.Proofs.Text.Utf8
import ShardedSql.Proofs.Url.Library
import ShardedSql.Url.Reader

/-!
# The URL reader is lawful

Characters are cut off and overlooked first, which leaves the parts of a URL apart from each other.
Then each law is one of the function that reads the part: `dropUser?` for user info, `file?` for
files and `plainPath` for the remainder without slashes.

Main results:

- Theorem `IsCut.tidied`: the server and what follows it stay apart.
- Theorem `dropUser?_userInfo`: user info is dropped up to the last `@`.
- Theorem `file?_eq_none`: the URL of a file with slashes has no user info.
- Theorem `parse?_lawful`: the reader is a lawful library.
-/

namespace ShardedSql.Url

variable {special : Bool} {c : Char} {cs front rest : List Char} {scheme text : String}

/-! ## Classes of characters -/

/-- Letters and digits of ASCII are no control characters and no wide ones. -/
theorem toNat_of_isAlphanum (hc : c.isAlphanum = true) : 0x30 ≤ c.toNat ∧ c.toNat ≤ 0x7A := by
  delta Char.isAlphanum Char.isAlpha Char.isUpper Char.isLower Char.isDigit at hc
  simp only [Bool.or_eq_true, Bool.and_eq_true, decide_eq_true_eq, ge_iff_le,
    UInt32.le_iff_toNat_le, Char.reduceVal, UInt32.reduceToNat] at hc
  have hvalue : c.toNat = c.val.toNat := rfl
  omega

/-- Only blanks and control characters are cut off. -/
theorem not_isEdge_of_lt (hc : 0x20 < c.toNat) : isEdge c = false := by
  rw [isEdge, decide_eq_false_iff_not]
  omega

/-- No letter or digit is cut off. -/
theorem not_isEdge_of_inCredential (hc : inCredential c = true) : isEdge c = false := by
  rw [inCredential, Bool.or_eq_true, decide_eq_true_eq] at hc
  rcases hc with hc | hc
  · exact not_isEdge_of_lt (Nat.lt_of_lt_of_le (by decide) (toNat_of_isAlphanum hc).1)
  · exact not_isEdge_of_lt (Nat.lt_trans (by decide) hc)

/-- Nor is a character of a scheme. -/
theorem not_isEdge_of_inScheme (hc : inScheme c = true) : isEdge c = false := by
  rw [inScheme, Bool.or_eq_true, decide_eq_true_eq] at hc
  rcases hc with hc | hc
  · exact not_isEdge_of_inCredential (Bool.or_eq_true_iff.mpr (.inl hc))
  · simp only [List.mem_cons, List.not_mem_nil, or_false] at hc
    rcases hc with rfl | rfl | rfl <;> decide

/-- Nor is one that ends the authority. -/
theorem not_isEdge_of_endsAuthority (hc : endsAuthority special c = true) : isEdge c = false := by
  simp only [endsAuthority, isSlash, endsPath, Bool.or_eq_true, Bool.and_eq_true, beq_iff_eq] at hc
  rcases hc with (rfl | ⟨-, rfl⟩) | rfl | rfl <;> decide

/-- What is overlooked inside of a URL is cut off at its ends. -/
theorem isEdge_of_isOverlooked (hc : isOverlooked c = true) : isEdge c = true := by
  simp only [isOverlooked, List.mem_cons, List.not_mem_nil, or_false, decide_eq_true_eq] at hc
  rcases hc with rfl | rfl | rfl <;> decide

theorem not_isOverlooked_of_not_isEdge (hc : isEdge c = false) : isOverlooked c = false :=
  Bool.eq_false_iff.mpr fun h => Bool.eq_false_iff.mp hc (isEdge_of_isOverlooked h)

/-! ## Cutting off and overlooking characters -/

/-- The characters of a URL without those that are cut off or overlooked. -/
def tidied (cs : List Char) : List Char :=
  (((cs.dropWhile isEdge).reverse.dropWhile isEdge).reverse).filter (!isOverlooked ·)

/-- The characters of the end of a URL without those that are cut off or overlooked. -/
def tidiedEnd (cs : List Char) : List Char :=
  ((cs.reverse.dropWhile isEdge).reverse).filter (!isOverlooked ·)

/-- What is not cut off is not overlooked either. -/
theorem filter_eq_self_of_not_isEdge (h : ∀ c ∈ front, isEdge c = false) :
    front.filter (!isOverlooked ·) = front :=
  List.filter_eq_self.mpr fun c hc => by
    rw [not_isOverlooked_of_not_isEdge (h c hc), Bool.not_false]

/-- At the end of a URL nothing is cut off before a character that stays. -/
theorem tidiedEnd_append {last : Char} (hlast : isEdge last = false) (front cs : List Char) :
    tidiedEnd (front ++ last :: cs) =
      front.filter (!isOverlooked ·) ++ last :: tidiedEnd cs := by
  have hkept : (last :: front.reverse).dropWhile isEdge = last :: front.reverse :=
    List.dropWhile_cons_of_neg (Bool.eq_false_iff.mp hlast)
  have hend : (front ++ last :: cs).reverse.dropWhile isEdge =
      cs.reverse.dropWhile isEdge ++ (last :: front.reverse) := by
    rw [List.append_cons, List.reverse_append, List.reverse_concat, List.dropWhile_append]
    split
    · rename_i hempty
      rw [List.isEmpty_iff.mp hempty, List.nil_append, hkept]
    · rfl
  have hfilter : [last].filter (!isOverlooked ·) = [last] :=
    filter_eq_self_of_not_isEdge (List.forall_mem_singleton.mpr hlast)
  rw [tidiedEnd, hend, List.reverse_append, List.reverse_cons, List.reverse_reverse,
    List.filter_append, List.filter_append, hfilter, tidiedEnd, List.append_assoc,
    List.singleton_append]

/-- Characters that stay are found at the start of the end. -/
theorem tidiedEnd_append_of_not_isEdge (h : ∀ c ∈ front, isEdge c = false) (cs : List Char) :
    tidiedEnd (front ++ cs) = front ++ tidiedEnd cs := by
  induction front with
  | nil => rfl
  | cons c front ih =>
      rw [List.forall_mem_cons] at h
      have hstep := tidiedEnd_append h.1 [] (front ++ cs)
      rw [List.nil_append, List.filter_nil, List.nil_append, ih h.2] at hstep
      exact hstep

/-- Nothing is cut off before a character that stays. -/
theorem tidied_cons (hc : isEdge c = false) (cs : List Char) :
    tidied (c :: cs) = tidiedEnd (c :: cs) := by
  rw [tidied, List.dropWhile_cons_of_neg (Bool.eq_false_iff.mp hc), tidiedEnd]

/-- Nothing of a text is left exactly if all of it can be cut off. -/
theorem tidiedEnd_eq_nil_iff : tidiedEnd cs = [] ↔ ∀ c ∈ cs, isEdge c = true := by
  constructor
  · intro h
    by_contra hne
    obtain ⟨last, hlast⟩ : ∃ last, last ∈ (cs.reverse.dropWhile isEdge).head? := by
      cases hkept : cs.reverse.dropWhile isEdge with
      | nil =>
          rw [List.dropWhile_eq_nil_iff] at hkept
          exact absurd (fun c hc => hkept c (List.mem_reverse.mpr hc)) hne
      | cons last kept => exact ⟨last, rfl⟩
    have hstays : isEdge last = false := by
      have hfirst := List.head?_dropWhile_not isEdge cs.reverse
      rw [Option.mem_def.mp hlast] at hfirst
      exact Bool.eq_false_iff.mpr (by simpa using hfirst)
    have hmem : last ∈ tidiedEnd cs :=
      List.mem_filter.mpr ⟨List.mem_reverse.mpr (List.mem_of_mem_head? hlast), by
        rw [not_isOverlooked_of_not_isEdge hstays, Bool.not_false]⟩
    rw [h] at hmem
    exact List.not_mem_nil hmem
  · intro h
    have hall : ∀ c ∈ cs.reverse, isEdge c = true := fun c hc => h c (List.mem_reverse.mp hc)
    rw [tidiedEnd, List.dropWhile_eq_nil_iff.mpr hall, List.reverse_nil, List.filter_nil]

theorem mem_of_mem_tidiedEnd (h : c ∈ tidiedEnd cs) : c ∈ cs :=
  List.mem_reverse.mp
    ((List.dropWhile_sublist isEdge).mem (List.mem_reverse.mp (List.mem_filter.mp h).1))

/-- The server and what follows it stay apart.  Of a server that is not blank something is left. -/
theorem IsCut.tidied {server tail : String} (h : IsCut special server tail) :
    ∃ kept left, tidiedEnd (server.toList ++ tail.toList) = kept ++ left ∧
      (∀ c ∈ kept, c ≠ '@' ∧ endsAuthority special c = false) ∧
      (∀ c ∈ left.head?, endsAuthority special c = true) ∧ (kept = [] ↔ IsBlank server tail) := by
  cases htail : tail.toList with
  | nil =>
      have hempty : tail = "" := String.toList_eq_nil_iff.mp htail
      refine ⟨tidiedEnd server.toList, [], by rw [List.append_nil, List.append_nil],
        fun c hc => h.server c (mem_of_mem_tidiedEnd hc), by simp, ?_⟩
      rw [tidiedEnd_eq_nil_iff]
      refine ⟨fun hedges => .inr ⟨hempty, hedges⟩, ?_⟩
      rintro (hoverlooked | ⟨-, hedges⟩)
      · exact fun c hc => isEdge_of_isOverlooked (hoverlooked c hc)
      · exact hedges
  | cons c cs =>
      have hends : endsAuthority special c = true := h.tail c (by rw [htail]; rfl)
      refine ⟨server.toList.filter (!isOverlooked ·), c :: tidiedEnd cs,
        tidiedEnd_append (not_isEdge_of_endsAuthority hends) _ _,
        fun c hc => h.server c (List.mem_filter.mp hc).1, fun d hd => ?_, ?_⟩
      · obtain rfl : c = d := Option.some.inj hd
        exact hends
      · simp only [List.filter_eq_nil_iff, Bool.not_eq_true', Bool.not_eq_false]
        refine ⟨.inl, ?_⟩
        rintro (hoverlooked | ⟨rfl, -⟩)
        · exact hoverlooked
        · simp at htail

/-- What is left of user info: it starts with a name, and the authority does not end in it. -/
theorem IsUserInfo.tidied {info : String} (h : IsUserInfo special info) (cs : List Char) :
    ∃ c kept, tidiedEnd (info.toList ++ '@' :: cs) = c :: kept ++ '@' :: tidiedEnd cs ∧
      inCredential c = true ∧ ∀ d ∈ c :: kept, endsAuthority special d = false := by
  obtain ⟨c, hc, hcredential⟩ := h.first
  obtain ⟨others, hothers⟩ := List.head?_eq_some_iff.mp hc
  have hfirst : (c :: others).filter (!isOverlooked ·) =
      c :: others.filter (!isOverlooked ·) := by
    refine List.filter_cons_of_pos ?_
    rw [not_isOverlooked_of_not_isEdge (not_isEdge_of_inCredential hcredential), Bool.not_false]
  refine ⟨c, others.filter (!isOverlooked ·), ?_, hcredential, fun d hd => h.all d ?_⟩
  · rw [tidiedEnd_append (by decide), hothers, hfirst]
  · rw [← hfirst] at hd
    rw [hothers]
    exact (List.mem_filter.mp hd).1

/-! ## Schemes -/

/-- A scheme is read up to the colon. -/
theorem scheme?_append (hs : IsScheme scheme) (cs : List Char) :
    scheme? (scheme.toList ++ ':' :: cs) = some (lowered scheme, cs) := by
  obtain ⟨c, hc, halpha⟩ := hs.first
  obtain ⟨others, hothers⟩ := List.head?_eq_some_iff.mp hc
  have hspan : (scheme.toList ++ ':' :: cs).span inScheme = (c :: others, ':' :: cs) := by
    rw [List.span_eq_takeWhile_dropWhile, List.takeWhile_append_of_pos hs.all,
      List.dropWhile_append_of_pos hs.all, List.takeWhile_cons_of_neg (by decide),
      List.dropWhile_cons_of_neg (by decide), List.append_nil, hothers]
  unfold scheme?
  rw [hspan]
  simp only [halpha, if_true, lowered, hothers]

/-- The scheme is what stands before the colon. -/
theorem scheme?_tidied (hs : IsScheme scheme) (cs : List Char) :
    scheme? (tidied (scheme.toList ++ ':' :: cs)) = some (lowered scheme, tidiedEnd cs) := by
  obtain ⟨c, hc, -⟩ := hs.first
  obtain ⟨others, hothers⟩ := List.head?_eq_some_iff.mp hc
  have hfront : ∀ c ∈ scheme.toList ++ [':'], isEdge c = false := by
    intro c hc
    rcases List.mem_append.mp hc with hc | hc
    · exact not_isEdge_of_inScheme (hs.all c hc)
    · obtain rfl := List.mem_singleton.mp hc
      decide
  have htidied : tidied (scheme.toList ++ ':' :: cs) = scheme.toList ++ ':' :: tidiedEnd cs := by
    calc tidied (scheme.toList ++ ':' :: cs)
        = tidiedEnd (scheme.toList ++ ':' :: cs) := by
          rw [hothers]
          exact tidied_cons (hfront c (by rw [hothers]; exact List.mem_cons_self)) _
      _ = scheme.toList ++ ':' :: tidiedEnd cs := by
          rw [List.append_cons, tidiedEnd_append_of_not_isEdge hfront, ← List.append_cons]
  rw [htidied, scheme?_append hs]

/-! ## User info -/

/-- A text is cut at its last `@`. -/
theorem afterLastAt_append {user host : List Char} (hhost : '@' ∉ host) :
    afterLastAt (user ++ '@' :: host) = some (user, host) := by
  have hstays : ∀ c ∈ host.reverse, (c != '@') = true := by
    intro c hc
    rw [bne_iff_ne]
    rintro rfl
    exact hhost (List.mem_reverse.mp hc)
  unfold afterLastAt
  rw [List.reverse_append, List.reverse_cons, List.append_assoc, List.singleton_append,
    List.span_eq_takeWhile_dropWhile, List.takeWhile_append_of_pos hstays,
    List.dropWhile_append_of_pos hstays]
  simp

/-- A text without an `@` is not cut. -/
theorem afterLastAt_eq_none (h : '@' ∉ cs) : afterLastAt cs = none := by
  have hstays : ∀ c ∈ cs.reverse, (c != '@') = true := by
    intro c hc
    rw [bne_iff_ne]
    rintro rfl
    exact h (List.mem_reverse.mp hc)
  unfold afterLastAt
  rw [List.span_eq_takeWhile_dropWhile, List.dropWhile_eq_nil_iff.mpr hstays]

/-- The authority goes up to the first character that ends it. -/
theorem span_authority (hfront : ∀ c ∈ front, endsAuthority special c = false)
    (hrest : ∀ c ∈ rest.head?, endsAuthority special c = true) :
    (front ++ rest).span (!endsAuthority special ·) = (front, rest) := by
  have hfront : ∀ c ∈ front, (!endsAuthority special c) = true := fun c hc => by
    rw [hfront c hc, Bool.not_false]
  rw [List.span_eq_takeWhile_dropWhile, List.takeWhile_append_of_pos hfront,
    List.dropWhile_append_of_pos hfront]
  cases rest with
  | nil => simp
  | cons c rest =>
      have hends := hrest c rfl
      rw [List.takeWhile_cons_of_neg (by simp [hends]),
        List.dropWhile_cons_of_neg (by simp [hends]), List.append_nil]

variable {info server tail : List Char}

/-- User info is dropped up to the last `@`, if there is a server behind it. -/
theorem dropUser?_userInfo (hname : inCredential c = true)
    (hinfo : ∀ d ∈ c :: info, endsAuthority special d = false)
    (hserver : ∀ d ∈ server, d ≠ '@' ∧ endsAuthority special d = false)
    (htail : ∀ d ∈ tail.head?, endsAuthority special d = true) :
    dropUser? special (c :: info ++ '@' :: (server ++ tail)) =
      if server.isEmpty then none else some (server ++ tail) := by
  have hauthority : ∀ d ∈ c :: info ++ '@' :: server, endsAuthority special d = false := by
    intro d hd
    rcases List.mem_append.mp hd with hd | hd
    · exact hinfo d hd
    · rcases List.mem_cons.mp hd with rfl | hd
      · cases special <;> rfl
      · exact (hserver d hd).2
  have hspan : (c :: info ++ '@' :: (server ++ tail)).span (!endsAuthority special ·) =
      (c :: info ++ '@' :: server, tail) := by
    rw [← span_authority hauthority htail, List.append_assoc, List.cons_append, List.cons_append,
      List.cons_append]
  have hcolon : (c :: info != [':']) = true := by
    rw [bne_iff_ne]
    rintro ⟨⟩
    exact absurd hname (by decide)
  unfold dropUser?
  rw [hspan]
  simp only [afterLastAt_append fun h => (hserver _ h).1 rfl, hcolon, List.isEmpty_cons,
    Bool.and_true, Bool.false_eq_true, if_false]

/-- Without user info nothing is dropped. -/
theorem dropUser?_server (hserver : ∀ d ∈ server, d ≠ '@' ∧ endsAuthority special d = false)
    (htail : ∀ d ∈ tail.head?, endsAuthority special d = true) :
    dropUser? special (server ++ tail) = some (server ++ tail) := by
  unfold dropUser?
  rw [span_authority (fun d hd => (hserver d hd).2) htail]
  simp only [afterLastAt_eq_none fun h => (hserver _ h).1 rfl]

/-- After two slashes user info makes no difference, except that it needs a server. -/
theorem afterSlashes?_userInfo (hname : inCredential c = true)
    (hinfo : ∀ d ∈ c :: info, endsAuthority (isSpecial scheme) d = false)
    (hserver : ∀ d ∈ server, d ≠ '@' ∧ endsAuthority (isSpecial scheme) d = false)
    (htail : ∀ d ∈ tail.head?, endsAuthority (isSpecial scheme) d = true) :
    afterSlashes? scheme (c :: info ++ '@' :: (server ++ tail)) =
      if server.isEmpty then none else afterSlashes? scheme (server ++ tail) := by
  rw [afterSlashes?, dropUser?_userInfo hname hinfo hserver htail]
  split
  · rfl
  · rw [afterSlashes?, dropUser?_server hserver htail]

/-! ## Files -/

/-- No domain has an `@`, in whatever way it is written. -/
theorem domain?_eq_none (hat : '@' ∈ cs) (hbracket : cs.head? ≠ some '[') : domain? cs = none := by
  unfold domain?
  rw [if_neg (by simpa using hbracket)]
  cases hdecoded : Text.percentDecoded? cs with
  | none => rfl
  | some s =>
      have hmem := Text.mem_of_percentDecoded? (by decide) (by decide) (by decide) hat hdecoded
      have hforbidden : (s.toList.map Char.toLower).any
          (fun c => isForbiddenInDomain c || 0x7F < c.toNat) = true :=
        List.any_eq_true.mpr ⟨'@', List.mem_map.mpr ⟨'@', hmem, by decide⟩, by decide⟩
      simp only [Option.bind_eq_bind, Option.bind_some, hforbidden, Bool.or_true, if_true,
        Option.bind_none]

theorem not_isSlash_of_not_endsAuthority (hc : endsAuthority special c = false) :
    isSlash special c = false :=
  (Bool.or_eq_false_iff.mp hc).1

/-- The URL of a file has no user info after its slashes. -/
theorem file?_eq_none (hname : inCredential c = true)
    (hinfo : ∀ d ∈ c :: info, endsAuthority true d = false) (rest : List Char) :
    file? ('/' :: '/' :: (c :: info ++ '@' :: rest)) = none := by
  have hspan : ('/' :: '/' :: (c :: info ++ '@' :: rest)).span (isSlash true) =
      (['/', '/'], c :: info ++ '@' :: rest) := by
    have hstop := Bool.eq_false_iff.mp (not_isSlash_of_not_endsAuthority (hinfo c
      List.mem_cons_self))
    have hslash : isSlash true '/' = true := by decide
    rw [List.span_eq_takeWhile_dropWhile, List.takeWhile_cons_of_pos hslash,
      List.takeWhile_cons_of_pos hslash, List.dropWhile_cons_of_pos hslash,
      List.dropWhile_cons_of_pos hslash, List.cons_append, List.takeWhile_cons_of_neg hstop,
      List.dropWhile_cons_of_neg hstop]
  have hauthority : ∀ d ∈ c :: info ++ ['@'], (!endsAuthority true d) = true := by
    intro d hd
    rw [Bool.not_eq_true']
    rcases List.mem_append.mp hd with hd | hd
    · exact hinfo d hd
    · obtain rfl := List.mem_singleton.mp hd
      decide
  have hhost : (c :: info ++ '@' :: rest).takeWhile (!endsAuthority true ·) =
      c :: info ++ '@' :: rest.takeWhile (!endsAuthority true ·) := by
    rw [List.append_cons, List.takeWhile_append_of_pos hauthority, ← List.append_cons]
  have hbracket : (c :: info ++ '@' :: rest.takeWhile (!endsAuthority true ·)).head? ≠
      some '[' := by
    rw [List.cons_append, List.head?_cons]
    rintro ⟨⟩
    exact absurd hname (by decide)
  have hat : '@' ∈ c :: info ++ '@' :: rest.takeWhile (!endsAuthority true ·) :=
    List.mem_append_right _ List.mem_cons_self
  unfold file?
  rw [hspan]
  simp only [List.isEmpty_nil, if_true, List.span_eq_takeWhile_dropWhile, hhost,
    domain?_eq_none hat hbracket]
  rfl

/-! ## Paths without slashes -/

theorem percentEncode_append (escaped : Char → Bool) (front cs : List Char) :
    Text.percentEncode escaped (front ++ cs) =
      Text.percentEncode escaped front ++ Text.percentEncode escaped cs :=
  List.flatMap_append

/-- What need not be escaped stays as it is. -/
theorem percentEncode_eq_self {escaped : Char → Bool} (h : ∀ c ∈ cs, escaped c = false) :
    Text.percentEncode escaped cs = cs := by
  induction cs with
  | nil => rfl
  | cons c cs ih =>
      rw [List.forall_mem_cons] at h
      rw [Text.percentEncode, List.flatMap_cons, h.1, ← Text.percentEncode, ih h.2]
      rfl

/-- Graphic characters of ASCII stay as they are in a path without slashes. -/
theorem plainPath_append {s : String} (h : IsPlain s) (cs : List Char) :
    plainPath (s.toList ++ cs) = s ++ plainPath cs := by
  have hstays : ∀ c ∈ s.toList, (!endsPath c) = true := fun c hc => by
    rw [(h.all c hc).2.2, Bool.not_false]
  have hkept : ∀ c ∈ s.toList, Text.isControlOrWide c = false := fun c hc => by
    obtain ⟨hlow, hhigh, -⟩ := h.all c hc
    rw [Text.isControlOrWide, Bool.or_eq_false_iff, decide_eq_false_iff_not,
      decide_eq_false_iff_not]
    omega
  rw [plainPath, List.takeWhile_append_of_pos hstays, percentEncode_append,
    percentEncode_eq_self hkept, String.ofList_append, String.ofList_toList, plainPath]

/-! ## URLs -/

/-- The URL of a file is read by its own rules. -/
theorem parse?_file (h : scheme? (tidied text.toList) = some ("file", rest)) :
    parse? text = file? rest := by
  unfold tidied at h
  simp only [parse?, h, Option.bind_eq_bind, Option.bind_some, beq_self_eq_true, if_true]

/-- The URL of a special scheme has a host, with or without slashes. -/
theorem parse?_special (h : scheme? (tidied text.toList) = some (scheme, rest))
    (hfile : scheme ≠ "file") (hspecial : isSpecial scheme = true) :
    parse? text = afterSlashes? scheme (rest.dropWhile (isSlash true)) := by
  unfold tidied at h
  simp only [parse?, h, Option.bind_eq_bind, Option.bind_some, beq_eq_false_iff_ne.mpr hfile,
    hspecial, if_true, Bool.false_eq_true, if_false]

theorem ne_file_of_not_special (h : isSpecial scheme = false) : scheme ≠ "file" := by
  rintro rfl
  exact absurd h (by decide)

/-- Any other URL with two slashes has one too. -/
theorem parse?_slashes (h : scheme? (tidied text.toList) = some (scheme, '/' :: '/' :: rest))
    (hspecial : isSpecial scheme = false) : parse? text = afterSlashes? scheme rest := by
  unfold tidied at h
  simp only [parse?, h, Option.bind_eq_bind, Option.bind_some,
    beq_eq_false_iff_ne.mpr (ne_file_of_not_special hspecial), hspecial, Bool.false_eq_true,
    if_false]

/-- Without a slash it is a path as it stands. -/
theorem parse?_plain (h : scheme? (tidied text.toList) = some (scheme, rest))
    (hspecial : isSpecial scheme = false) (hrest : rest.head? ≠ some '/') :
    parse? text = some { scheme, host := none, tcpPort := none, path := plainPath rest } := by
  unfold tidied at h
  simp only [parse?, h, Option.bind_eq_bind, Option.bind_some,
    beq_eq_false_iff_ne.mpr (ne_file_of_not_special hspecial), hspecial, Bool.false_eq_true,
    if_false]
  split
  · exact absurd rfl hrest
  · exact absurd rfl hrest
  · rfl

/-- The characters behind two slashes are read after the scheme. -/
theorem scheme?_slashes (hscheme : IsScheme scheme) (text : String) :
    scheme? (tidied (scheme ++ "://" ++ text).toList) =
      some (lowered scheme, '/' :: '/' :: tidiedEnd text.toList) := by
  have hchars : (scheme ++ "://" ++ text).toList =
      scheme.toList ++ ':' :: (['/', '/'] ++ text.toList) := by
    simp
  have hslashes : ∀ c ∈ ['/', '/'], isEdge c = false :=
    List.forall_mem_cons.mpr ⟨rfl, List.forall_mem_singleton.mpr rfl⟩
  rw [hchars, scheme?_tidied hscheme, tidiedEnd_append_of_not_isEdge hslashes]
  rfl

/-- A URL with two slashes goes on with its authority, whatever the scheme is, if no further slash
stands there. -/
theorem parse?_authority (hscheme : IsScheme scheme) (hfile : lowered scheme ≠ "file")
    (hfirst : ∀ c ∈ (tidiedEnd text.toList).head?, isSlash (isSpecial (lowered scheme)) c = false) :
    parse? (scheme ++ "://" ++ text) = afterSlashes? (lowered scheme) (tidiedEnd text.toList) := by
  have hread := scheme?_slashes hscheme text
  cases hspecial : isSpecial (lowered scheme) with
  | false => exact parse?_slashes hread hspecial
  | true =>
      rw [hspecial] at hfirst
      have hslashes : ('/' :: '/' :: tidiedEnd text.toList).dropWhile (isSlash true) =
          tidiedEnd text.toList := by
        cases hkept : tidiedEnd text.toList with
        | nil => rfl
        | cons c cs =>
            have hc := hfirst c (by rw [hkept]; rfl)
            rw [List.dropWhile_cons_of_pos (by decide), List.dropWhile_cons_of_pos (by decide),
              List.dropWhile_cons_of_neg (Bool.eq_false_iff.mp hc)]
      rw [parse?_special hread hfile hspecial, hslashes]

/-- User info is read over if there is a server behind it. -/
theorem parse?_userInfo {info server tail : String} (hscheme : IsScheme scheme)
    (hfile : lowered scheme ≠ "file") (hinfo : IsUserInfo (isSpecial (lowered scheme)) info)
    (hcut : IsCut (isSpecial (lowered scheme)) server tail) :
    (¬ IsBlank server tail → parse? (scheme ++ "://" ++ info ++ "@" ++ server ++ tail) =
      parse? (scheme ++ "://" ++ server ++ tail)) ∧
    (IsBlank server tail → parse? (scheme ++ "://" ++ info ++ "@" ++ server ++ tail) = none) := by
  obtain ⟨kept, left, hkept, hserver, htail, hblank⟩ := hcut.tidied
  obtain ⟨c, user, huser, hname, huserinfo⟩ := hinfo.tidied (server.toList ++ tail.toList)
  have hwith : parse? (scheme ++ "://" ++ info ++ "@" ++ server ++ tail) =
      if kept.isEmpty then none else afterSlashes? (lowered scheme) (kept ++ left) := by
    have hchars : tidiedEnd (info ++ "@" ++ server ++ tail).toList =
        c :: user ++ '@' :: (kept ++ left) := by
      rw [← hkept, ← huser]
      simp
    have hsame : scheme ++ "://" ++ info ++ "@" ++ server ++ tail =
        scheme ++ "://" ++ (info ++ "@" ++ server ++ tail) := by
      simp only [String.append_assoc]
    rw [hsame, parse?_authority hscheme hfile, hchars,
      afterSlashes?_userInfo hname huserinfo hserver htail]
    rw [hchars]
    rintro d ⟨⟩
    exact not_isSlash_of_not_endsAuthority (huserinfo c List.mem_cons_self)
  refine ⟨fun hsome => ?_, fun hnone => ?_⟩
  · rw [← hblank] at hsome
    obtain ⟨d, others, rfl⟩ := List.exists_cons_of_ne_nil hsome
    have hchars : tidiedEnd (server ++ tail).toList = d :: others ++ left := by
      rw [← hkept, String.toList_append]
    rw [hwith, String.append_assoc, parse?_authority hscheme hfile, hchars]
    · rfl
    · rw [hchars]
      rintro e ⟨⟩
      exact not_isSlash_of_not_endsAuthority (hserver d List.mem_cons_self).2
  · rw [hwith, hblank.mpr hnone]
    rfl

/-- The reader is a lawful library. -/
theorem parse?_lawful : UrlLibrary.Lawful parse? where
  userInfo hscheme hfile hinfo hcut hsome := (parse?_userInfo hscheme hfile hinfo hcut).1 hsome
  needsServer hscheme hfile hinfo hcut hnone :=
    (parse?_userInfo hscheme hfile hinfo hcut).2 hnone
  file := by
    intro scheme info text hscheme hfile hinfo
    obtain ⟨c, user, huser, hname, huserinfo⟩ := hinfo.tidied text.toList
    have hread := scheme?_slashes hscheme (info ++ "@" ++ text)
    have hchars : tidiedEnd (info ++ "@" ++ text).toList =
        c :: user ++ '@' :: tidiedEnd text.toList := by
      rw [← huser]
      simp
    rw [hfile, hchars] at hread
    have hsame : scheme ++ "://" ++ info ++ "@" ++ text =
        scheme ++ "://" ++ (info ++ "@" ++ text) := by
      simp only [String.append_assoc]
    rw [hsame, parse?_file hread, file?_eq_none hname huserinfo]
  web := by
    intro scheme text hscheme hweb
    have hfile : lowered scheme ≠ "file" := by
      intro hfile
      rw [hfile] at hweb
      exact absurd hweb (by decide)
    have hspecial : isSpecial (lowered scheme) = true := by rw [isSpecial, hweb, Bool.or_true]
    have hread : scheme? (tidied (scheme ++ ":" ++ text).toList) =
        some (lowered scheme, tidiedEnd text.toList) := by
      rw [← scheme?_tidied hscheme]
      simp
    rw [parse?_special hread hfile hspecial,
      parse?_special (scheme?_slashes hscheme text) hfile hspecial,
      List.dropWhile_cons_of_pos (by decide), List.dropWhile_cons_of_pos (by decide)]
  path := by
    intro scheme rest hscheme hspecial
    refine ⟨plainPath (tidiedEnd rest.toList), fun front hfront => ?_⟩
    have hedge : ∀ c ∈ front.toList, isEdge c = false := fun c hc =>
      not_isEdge_of_lt (hfront.all c hc).1
    have hread : scheme? (tidied (scheme ++ ":" ++ front ++ rest).toList) =
        some (lowered scheme, front.toList ++ tidiedEnd rest.toList) := by
      rw [← tidiedEnd_append_of_not_isEdge hedge, ← scheme?_tidied hscheme]
      simp
    have hfirst : (front.toList ++ tidiedEnd rest.toList).head? ≠ some '/' := by
      obtain ⟨c, hc, hslash⟩ := hfront.first
      rw [List.mem_head?_append_of_mem_head? hc]
      rintro ⟨⟩
      exact hslash rfl
    rw [parse?_plain hread hspecial hfirst, plainPath_append hfront]

end ShardedSql.Url
