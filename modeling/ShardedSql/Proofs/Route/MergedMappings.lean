import ShardedSql.Proofs.Route.Units

/-!
# Merged mappings

A list of mappings says less than another one when every name that it maps is mapped there too: to
the same actual name, or to any if the name stands for itself.  Merging two lists finds the least
list that says no less than either, and fails exactly when there is none.  The laws of merging
follow from this alone, since what is least above some lists depends neither on their order nor on
which of them are put together first.

Main results:

- Theorem `isJoin_mergeMapping`: adding one mapping, the step of a merge.
- Theorem `isJoin_mergeMappings`: the lists above a merged list are those above both lists, and
  where the merge fails there are none.
- Theorem `mergeMappings_laws`: merging is a partial join, and so it is idempotent, commutative and
  associative, up to the order of the mappings.
-/

namespace ShardedSql

/-! ## Lists that say less -/

/-- The name of the mapping is mapped in the list, and in the same way unless it stands for
itself. -/
def Mapping.HoldsIn (m : Mapping) (ms : List Mapping) : Prop :=
  ∃ c, findMapping? ms m.logical = some c ∧ (m.isIdentity = true ∨ m = c)

/-- What the first list says of a name holds in the second one. -/
def Below (ms ns : List Mapping) : Prop :=
  ∀ t m, findMapping? ms t = some m → m.HoldsIn ns

/-- What a list says of a name holds in the list itself. -/
theorem holdsIn_of_findMapping? {ms : List Mapping} {t : String} {m : Mapping}
    (h : findMapping? ms t = some m) : m.HoldsIn ms :=
  ⟨m, by rw [findMapping?_congr ms (alike_of_findMapping? h), h], .inr rfl⟩

/-- What holds in a list holds in every list that says no less. -/
theorem Mapping.HoldsIn.mono {m : Mapping} {ms ns : List Mapping} (h : m.HoldsIn ms)
    (hbelow : Below ms ns) : m.HoldsIn ns := by
  obtain ⟨c, hc, hsame⟩ := h
  obtain ⟨d, hd, hsame'⟩ := hbelow _ _ hc
  rw [findMapping?_congr ns (alike_of_findMapping? hc)] at hd
  refine ⟨d, hd, ?_⟩
  rcases hsame with hidentity | rfl
  · exact .inl hidentity
  · exact hsame'

/-- A list says no less than itself. -/
theorem Below.refl (ms : List Mapping) : Below ms ms :=
  fun _ _ h => holdsIn_of_findMapping? h

/-- A list that says less than a second one says less than all above that. -/
theorem Below.trans {ms ns ks : List Mapping} (h : Below ms ns) (hnext : Below ns ks) :
    Below ms ks :=
  fun t m hm => (h t m hm).mono hnext

/-- An outcome is the least list with a property, in that the lists above it are those with the
property; a fault means that there are none. -/
def IsJoin (P : List Mapping → Prop) : Option (List Mapping) → Prop
  | some r => ∀ u, Below r u ↔ P u
  | none => ∀ u, ¬ P u

section Joins

variable {P Q : List Mapping → Prop} {x y : Option (List Mapping)}

/-- The least list with a property is the least one with any property that the same lists have. -/
theorem IsJoin.congr (h : IsJoin P x) (hsame : ∀ u, P u ↔ Q u) : IsJoin Q x := by
  cases x with
  | none => exact fun u hu => h u ((hsame u).mpr hu)
  | some r => exact fun u => (h u).trans (hsame u)

/-- The least list above a least list is least with both properties. -/
theorem IsJoin.bind {f : List Mapping → Option (List Mapping)} (h : IsJoin P x)
    (hnext : ∀ r, x = some r → IsJoin (fun u => Below r u ∧ Q u) (f r)) :
    IsJoin (fun u => P u ∧ Q u) (x >>= f) := by
  cases x with
  | none => exact fun u hu => h u hu.1
  | some r => exact (hnext r rfl).congr fun u => and_congr_left' (h u)

/-- There is only one least list, up to what it says. -/
theorem IsJoin.unique (hx : IsJoin P x) (hy : IsJoin P y) :
    Option.Rel (fun r s => Below r s ∧ Below s r) x y := by
  cases x with
  | none =>
      cases y with
      | none => exact .none
      | some s => exact absurd ((hy s).mp (.refl s)) (hx s)
  | some r =>
      cases y with
      | none => exact absurd ((hx r).mp (.refl r)) (hy r)
      | some s =>
          exact .some ⟨(hx s).mpr ((hy s).mp (.refl s)), (hy r).mpr ((hx r).mp (.refl r))⟩

end Joins

/-! ## Adding one mapping -/

/-- A mapping that is added settles its name: a mapping of the name that was there before gives way
or stays.  The two clash when they differ and neither stands for itself. -/
theorem mergeMapping_cases (m : Mapping) (ms : List Mapping) :
    (∃ r k, mergeMapping m ms = some r ∧
      (k = m ∨ findMapping? ms m.logical = some k ∧ m.isIdentity = true) ∧
      (∀ c, findMapping? ms m.logical = some c → c.isIdentity = true ∨ c = k) ∧
      ∀ t, findMapping? r t =
        if Text.alike m.logical t = true then some k else findMapping? ms t) ∨
    ∃ c, mergeMapping m ms = none ∧ findMapping? ms m.logical = some c ∧
      c.isIdentity = false ∧ m.isIdentity = false ∧ c ≠ m := by
  induction ms with
  | nil =>
      refine .inl ⟨[m], m, rfl, .inl rfl, ?_, findMapping?_cons m []⟩
      intro c hc
      cases hc
  | cons c cs ih =>
      rw [mergeMapping, findMapping?_cons]
      by_cases halike : Text.alike c.logical m.logical = true
      · have hname := fun t => Text.alike_congr_left halike t
        rw [if_pos halike, if_pos halike]
        by_cases hkeep : (c == m || m.isIdentity) = true
        · left
          refine ⟨c :: cs, c, if_pos hkeep, ?_, ?_, ?_⟩
          · rw [Bool.or_eq_true, beq_iff_eq] at hkeep
            exact hkeep.imp_right fun hidentity => ⟨rfl, hidentity⟩
          · rintro _ ⟨⟩
            exact .inr rfl
          · intro t
            rw [findMapping?_cons, hname]
            split <;> rfl
        · rw [if_neg hkeep]
          rw [Bool.not_eq_true, Bool.or_eq_false_iff] at hkeep
          cases hidentity : c.isIdentity with
          | true =>
              left
              refine ⟨m :: cs, m, rfl, .inl rfl, ?_, ?_⟩
              · rintro _ ⟨⟩
                exact .inl hidentity
              · intro t
                rw [findMapping?_cons, findMapping?_cons, hname]
                split <;> rfl
          | false => exact .inr ⟨c, rfl, rfl, hidentity, hkeep.2, by simpa using hkeep.1⟩
      · rw [if_neg halike, if_neg halike]
        rcases ih with ⟨r, k, hr, hk, hold, hfind⟩ | ⟨d, hnone, hd⟩
        · left
          refine ⟨c :: r, k, by rw [hr]; rfl, hk, hold, ?_⟩
          intro t
          rw [findMapping?_cons, findMapping?_cons, hfind]
          by_cases ht : Text.alike m.logical t = true
          · rw [Text.alike_congr_right ht] at halike
            rw [if_neg halike, if_pos ht, if_pos ht]
          · rw [if_neg ht, if_neg ht]
        · exact .inr ⟨d, by rw [hnone]; rfl, hd⟩

/-- Adding a mapping finds the least list above a list in which the mapping holds. -/
theorem isJoin_mergeMapping (m : Mapping) (ms : List Mapping) :
    IsJoin (fun u => Below ms u ∧ m.HoldsIn u) (mergeMapping m ms) := by
  rcases mergeMapping_cases m ms with
    ⟨r, k, hr, hk, hold, hfind⟩ | ⟨c, hnone, hc, hother, hm, hne⟩
  · rw [hr]
    have hsettled : ∀ {t}, Text.alike m.logical t = true → findMapping? r t = some k := by
      intro t ht
      rw [hfind, if_pos ht]
    have hbelow : Below ms r := by
      intro t c hc
      by_cases ht : Text.alike m.logical t = true
      · rw [← findMapping?_congr ms ht] at hc
        refine ⟨k, hsettled ?_, hold c hc⟩
        rw [Text.alike_comm]
        exact alike_of_findMapping? hc
      · refine holdsIn_of_findMapping? (t := t) ?_
        rw [hfind, if_neg ht, hc]
    have hholds : m.HoldsIn r := by
      refine ⟨k, hsettled (Text.alike_refl _), ?_⟩
      rcases hk with rfl | ⟨-, hidentity⟩
      · exact .inr rfl
      · exact .inl hidentity
    intro u
    constructor
    · intro h
      exact ⟨hbelow.trans h, hholds.mono h⟩
    · rintro ⟨hms, hmu⟩ t d hd
      rw [hfind] at hd
      by_cases ht : Text.alike m.logical t = true
      · rw [if_pos ht] at hd
        cases hd
        rcases hk with rfl | ⟨hfound, -⟩
        · exact hmu
        · exact hms _ _ hfound
      · rw [if_neg ht] at hd
        exact hms t d hd
  · rw [hnone]
    rintro u ⟨hms, d, hd, hsame⟩
    -- Both mappings would have to be the one that the name has above.
    obtain ⟨e, he, hsame'⟩ := hms _ _ hc
    rw [findMapping?_congr u (alike_of_findMapping? hc), hd] at he
    cases he
    rw [hm] at hsame
    rw [hother] at hsame'
    simp only [Bool.false_eq_true, false_or] at hsame hsame'
    exact hne (hsame'.trans hsame.symm)

/-! ## Merging lists -/

/-- What a list with distinct names says is what each of its mappings says. -/
theorem below_iff_forall_holdsIn {ms : List Mapping} (h : DistinctNames ms) (u : List Mapping) :
    Below ms u ↔ ∀ m ∈ ms, m.HoldsIn u := by
  constructor
  · intro hbelow m hm
    exact hbelow _ _ (findMapping?_of_mem h hm)
  · intro hall t m hm
    exact hall m (List.mem_of_find?_eq_some hm)

/-- Merging finds the least list above a list in which some mappings hold. -/
theorem isJoin_foldMappings (ms ns : List Mapping) :
    IsJoin (fun u => Below ms u ∧ ∀ n ∈ ns, n.HoldsIn u) (mergeMappings ms ns) := by
  unfold mergeMappings
  induction ns generalizing ms with
  | nil =>
      show ∀ u, Below ms u ↔ _
      simp
  | cons n ns ih =>
      rw [List.foldlM_cons]
      refine ((isJoin_mergeMapping n ms).bind fun r _ => ih r).congr ?_
      intro u
      rw [List.forall_mem_cons, and_assoc]

/-- The lists above a merged list are those above both lists; where the merge fails there are
none. -/
theorem isJoin_mergeMappings (ms : List Mapping) {ns : List Mapping} (h : DistinctNames ns) :
    IsJoin (fun u => Below ms u ∧ Below ns u) (mergeMappings ms ns) :=
  (isJoin_foldMappings ms ns).congr fun u => and_congr_right' (below_iff_forall_holdsIn h u).symm

/-! ## The mappings of a merged list -/

/-- What an outcome consists of, if there is one. -/
def Within (mappings : List Mapping) (x : Option (List Mapping)) : Prop :=
  ∀ r, x = some r → r ⊆ mappings

/-- Steps one after the other add nothing when neither does. -/
theorem Within.bind {mappings : List Mapping} {x : Option (List Mapping)}
    {f : List Mapping → Option (List Mapping)} (h : Within mappings x)
    (hnext : ∀ r, r ⊆ mappings → Within mappings (f r)) : Within mappings (x >>= f) := by
  intro s hs
  rcases Option.bind_eq_some_iff.mp hs with ⟨r, hr, hrs⟩
  exact hnext r (h r hr) s hrs

/-- Adding a mapping adds nothing else. -/
theorem subset_of_mergeMapping {m : Mapping} {ms r : List Mapping}
    (h : mergeMapping m ms = some r) : r ⊆ m :: ms := by
  induction ms generalizing r with
  | nil =>
      cases h
      exact List.Subset.refl _
  | cons c cs ih =>
      rw [mergeMapping] at h
      split at h
      · split at h
        · cases h
          exact List.subset_cons_self _ _
        · split at h
          · cases h
            exact List.cons_subset_cons m (List.subset_cons_self c cs)
          · cases h
      · rcases Option.map_eq_some_iff.mp h with ⟨rest, hrest, rfl⟩
        intro k hk
        rcases List.mem_cons.mp hk with rfl | hk
        · exact List.mem_cons_of_mem _ List.mem_cons_self
        · rcases List.mem_cons.mp (ih hrest hk) with rfl | hk
          · exact List.mem_cons_self
          · exact List.mem_cons_of_mem _ (List.mem_cons_of_mem _ hk)

/-- A merged list has no other mappings than the two lists. -/
theorem within_mergeMappings {mappings ms ns : List Mapping} (hms : ms ⊆ mappings)
    (hns : ns ⊆ mappings) : Within mappings (mergeMappings ms ns) := by
  unfold mergeMappings
  induction ns generalizing ms with
  | nil =>
      rintro _ ⟨⟩
      exact hms
  | cons n ns ih =>
      rw [List.cons_subset] at hns
      have hstep : Within mappings (mergeMapping n ms) := by
        intro r hr k hk
        rcases List.mem_cons.mp (subset_of_mergeMapping hr hk) with rfl | hk
        · exact hns.1
        · exact hms hk
      rw [List.foldlM_cons]
      exact hstep.bind fun r hr => ih hr hns.2

/-- Adding a mapping keeps names distinct, since it takes the place of one of its name. -/
theorem DistinctNames.mergeMapping {m : Mapping} {ms r : List Mapping} (hms : DistinctNames ms)
    (h : mergeMapping m ms = some r) : DistinctNames r := by
  induction ms generalizing r with
  | nil =>
      cases h
      exact List.pairwise_singleton _ _
  | cons c cs ih =>
      have hcons := List.pairwise_cons.mp hms
      rw [ShardedSql.mergeMapping] at h
      split at h
      · rename_i halike
        split at h
        · cases h
          exact hms
        · split at h
          · cases h
            refine List.pairwise_cons.mpr ⟨fun k hk => ?_, hcons.2⟩
            rw [← Text.alike_congr_left halike]
            exact hcons.1 k hk
          · cases h
      · rename_i halike
        rcases Option.map_eq_some_iff.mp h with ⟨rest, hrest, rfl⟩
        refine List.pairwise_cons.mpr ⟨fun k hk => ?_, ih hcons.2 hrest⟩
        rcases List.mem_cons.mp (subset_of_mergeMapping hrest hk) with rfl | hk
        · exact Bool.not_eq_true _ ▸ halike
        · exact hcons.1 k hk

/-- Merging keeps names distinct. -/
theorem DistinctNames.mergeMappings {ms ns r : List Mapping} (hms : DistinctNames ms)
    (h : mergeMappings ms ns = some r) : DistinctNames r := by
  unfold ShardedSql.mergeMappings at h
  induction ns generalizing ms with
  | nil =>
      cases h
      exact hms
  | cons n ns ih =>
      rw [List.foldlM_cons] at h
      rcases Option.bind_eq_some_iff.mp h with ⟨next, hnext, hrest⟩
      exact ih (hms.mergeMapping hnext) hrest

/-! ## Lists that say the same -/

/-- Each name that stands for itself is spelt in one way. -/
def SpeltAlike (ms : List Mapping) : Prop :=
  ∀ m ∈ ms, ∀ n ∈ ms, m.isIdentity = true → n.isIdentity = true →
    Text.alike m.logical n.logical = true → m.logical = n.logical

instance : DecidablePred SpeltAlike :=
  fun ms => inferInstanceAs (Decidable (∀ m ∈ ms, ∀ n ∈ ms, _))

/-- The lists map the same names to the same actual names. -/
def SameMap (ms ns : List Mapping) : Prop :=
  ∀ t, findMapping? ms t = findMapping? ns t

/-- Fewer mappings are spelt alike as well. -/
theorem SpeltAlike.subset {ms ns : List Mapping} (h : SpeltAlike ns) (hsub : ms ⊆ ns) :
    SpeltAlike ms :=
  fun m hm n hn => h m (hsub hm) n (hsub hn)

/-- Mappings that stand for themselves are told apart by their names. -/
theorem Mapping.ext_of_isIdentity {m n : Mapping} (hm : m.isIdentity = true)
    (hn : n.isIdentity = true) (h : m.logical = n.logical) : m = n := by
  rw [isIdentity, beq_iff_eq] at hm hn
  cases m
  cases n
  simp_all

/-- Of two lists that say the same, either has the mappings that are found in the other one. -/
theorem findMapping?_of_below {ms ns : List Mapping} (hspelt : SpeltAlike (ms ++ ns))
    (hle : Below ms ns) (hge : Below ns ms) {t : String} {m : Mapping}
    (h : findMapping? ms t = some m) : findMapping? ns t = some m := by
  have hname := alike_of_findMapping? h
  obtain ⟨n, hn, hsame⟩ := hle t m h
  obtain ⟨k, hk, hsame'⟩ := hge _ _ hn
  have hspelling := alike_of_findMapping? hn
  rw [findMapping?_congr ms hspelling, findMapping?_congr ms hname, h] at hk
  cases hk
  rw [findMapping?_congr ns hname] at hn
  rw [hn]
  congr 1
  rcases hsame with hm | rfl
  · rcases hsame' with hidentity | rfl
    · -- Both stand for themselves, so only their spelling could tell them apart.
      refine Mapping.ext_of_isIdentity hidentity hm (hspelt n ?_ m ?_ hidentity hm hspelling)
      · exact List.mem_append_right _ (List.mem_of_find?_eq_some hn)
      · exact List.mem_append_left _ (List.mem_of_find?_eq_some h)
    · rfl
  · rfl

/-- Lists that say the same are the same maps. -/
theorem sameMap_of_below {ms ns : List Mapping} (hspelt : SpeltAlike (ms ++ ns))
    (hle : Below ms ns) (hge : Below ns ms) : SameMap ms ns := by
  have hspelt' : SpeltAlike (ns ++ ms) := hspelt.subset (by simp)
  intro t
  apply Option.ext
  intro m
  constructor
  · exact findMapping?_of_below hspelt hle hge
  · exact findMapping?_of_below hspelt' hge hle

/-- Outcomes that are least with one property fail together or are the same map. -/
theorem IsJoin.sameMap {P : List Mapping → Prop} {x y : Option (List Mapping)}
    {mappings : List Mapping} (hx : IsJoin P x) (hy : IsJoin P y) (hspelt : SpeltAlike mappings)
    (hxs : Within mappings x) (hys : Within mappings y) : Option.Rel SameMap x y := by
  cases hx.unique hy with
  | none => exact .none
  | some h =>
      have hsub := List.append_subset.mpr ⟨hxs _ rfl, hys _ rfl⟩
      exact .some (sameMap_of_below (hspelt.subset hsub) h.1 h.2)

/-! ## Laws -/

/-- Merging two lists gives the least list above both, or fails when there is none.  Merging a list
with itself gives the same map; two lists give the same map in either order, or fail in both; and so
do three lists whichever two of them are merged first. -/
theorem mergeMappings_laws {a b c : List Mapping} (ha : DistinctNames a) (hb : DistinctNames b)
    (hc : DistinctNames c) (hspelt : SpeltAlike (a ++ b ++ c)) :
    IsJoin (fun u => Below a u ∧ Below b u) (mergeMappings a b) ∧
    Option.Rel SameMap (mergeMappings a a) (some a) ∧
    Option.Rel SameMap (mergeMappings a b) (mergeMappings b a) ∧
    Option.Rel SameMap (mergeMappings a b >>= fun ab => mergeMappings ab c)
      (mergeMappings b c >>= fun bc => mergeMappings a bc) := by
  have hsuba : a ⊆ a ++ b ++ c := by simp
  have hsubb : b ⊆ a ++ b ++ c := by simp
  have hsubc : c ⊆ a ++ b ++ c := by simp
  refine ⟨isJoin_mergeMappings a hb, ?_, ?_, ?_⟩
  · have hself : IsJoin (fun u => Below a u ∧ Below a u) (some a) :=
      fun _ => and_self_iff.symm
    have hwithin : Within (a ++ b ++ c) (some a) := by
      rintro _ ⟨⟩
      exact hsuba
    exact (isJoin_mergeMappings a ha).sameMap hself hspelt (within_mergeMappings hsuba hsuba)
      hwithin
  · have hswap : IsJoin (fun u => Below a u ∧ Below b u) (mergeMappings b a) :=
      (isJoin_mergeMappings b ha).congr fun _ => and_comm
    exact (isJoin_mergeMappings a hb).sameMap hswap hspelt (within_mergeMappings hsuba hsubb)
      (within_mergeMappings hsubb hsuba)
  · -- Either way the outcome is least above all three lists.
    have hleft : IsJoin (fun u => (Below a u ∧ Below b u) ∧ Below c u)
        (mergeMappings a b >>= fun ab => mergeMappings ab c) :=
      (isJoin_mergeMappings a hb).bind fun ab _ => isJoin_mergeMappings ab hc
    have hright : IsJoin (fun u => (Below b u ∧ Below c u) ∧ Below a u)
        (mergeMappings b c >>= fun bc => mergeMappings a bc) :=
      (isJoin_mergeMappings b hc).bind fun bc hbc =>
        (isJoin_mergeMappings a (hb.mergeMappings hbc)).congr fun _ => and_comm
    refine hleft.sameMap (hright.congr fun u => ?_) hspelt ?_ ?_
    · rw [and_comm, and_assoc]
    · exact (within_mergeMappings hsuba hsubb).bind fun _ h => within_mergeMappings h hsubc
    · exact (within_mergeMappings hsubb hsubc).bind fun _ h => within_mergeMappings hsuba h

/-- Tables of a unit: one stands for itself, the other one is numbered. -/
def unitTables : List Mapping := [⟨"t_order", "t_order"⟩, ⟨"t_item", "t_item_1"⟩]

/-- Tables of a candidate that numbers a table of the unit. -/
def candidateTables : List Mapping := [⟨"t_user", "t_user"⟩, ⟨"t_order", "t_order_0"⟩]

/-- Tables of a candidate that numbers a table of the other candidate. -/
def userTables : List Mapping := [⟨"t_user", "t_user_3"⟩, ⟨"t_item", "t_item"⟩]

/-- Merged in either order, lists give the same map, though their mappings come in another order. -/
theorem mergeMappings_laws_numberedTables :
    DistinctNames unitTables ∧ DistinctNames candidateTables ∧ DistinctNames userTables ∧
    SpeltAlike (unitTables ++ candidateTables ++ userTables) ∧
    mergeMappings unitTables candidateTables =
      some [⟨"t_order", "t_order_0"⟩, ⟨"t_item", "t_item_1"⟩, ⟨"t_user", "t_user"⟩] ∧
    mergeMappings candidateTables unitTables =
      some [⟨"t_user", "t_user"⟩, ⟨"t_order", "t_order_0"⟩, ⟨"t_item", "t_item_1"⟩] ∧
    Option.Rel SameMap (mergeMappings unitTables candidateTables)
      (mergeMappings candidateTables unitTables) ∧
    Option.Rel SameMap
      (mergeMappings unitTables candidateTables >>= fun ab => mergeMappings ab userTables)
      (mergeMappings candidateTables userTables >>= fun bc => mergeMappings unitTables bc) := by
  have hunit : DistinctNames unitTables := by decide +kernel
  have hcandidate : DistinctNames candidateTables := by decide +kernel
  have huser : DistinctNames userTables := by decide +kernel
  have hspelt : SpeltAlike (unitTables ++ candidateTables ++ userTables) := by decide +kernel
  obtain ⟨-, -, hswap, hassoc⟩ := mergeMappings_laws hunit hcandidate huser hspelt
  exact ⟨hunit, hcandidate, huser, hspelt, by decide +kernel, by decide +kernel, hswap, hassoc⟩

end ShardedSql
