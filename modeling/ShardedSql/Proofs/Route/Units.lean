import ShardedSql.Proofs.Distinctly
import ShardedSql.Route.Narrowing

/-!
# Routes as sets of units

A route is built by adding units one after the other, a unit that is there already being left out.
What is in it in the end, and what its units map a table to, does not depend on repetitions.

Main results:

- Theorem `findMapping?_of_mem`: among mappings of different names each one is found.
- Theorems `Route.mem_ofUnits` and `Route.nodup_ofUnits`: the units of a route, each once.
- Theorems `mergeMappings_identities` and `findMapping?_newNames`: names that stand for themselves
  are added where they are new, and the others make no difference.
- Theorem `Route.narrow_eq`: narrowing by candidates whose merges succeed.
-/

namespace ShardedSql

/-! ## Names -/

namespace Text

/-- Names are alike exactly if they differ in the case of ASCII letters at most. -/
theorem alike_iff {a b : String} :
    alike a b = true ↔ a.toList.map Char.toLower = b.toList.map Char.toLower := by
  simp [alike]

@[simp]
theorem alike_refl (a : String) : alike a a = true := alike_iff.mpr rfl

theorem alike_comm (a b : String) : alike a b = alike b a := by
  rw [Bool.eq_iff_iff, alike_iff, alike_iff]
  exact eq_comm

/-- Alike names are alike to the same names. -/
theorem alike_congr_left {a b : String} (h : alike a b = true) (c : String) :
    alike a c = alike b c := by
  rw [Bool.eq_iff_iff, alike_iff, alike_iff, alike_iff.mp h]

/-- The same names are alike to alike names. -/
theorem alike_congr_right {a b : String} (h : alike a b = true) (c : String) :
    alike c a = alike c b := by
  rw [alike_comm c a, alike_comm c b, alike_congr_left h]

end Text

/-! ## Mappings -/

/-- In two lists a name is looked up in the first one first. -/
theorem findMapping?_append (ms ns : List Mapping) (t : String) :
    findMapping? (ms ++ ns) t = (findMapping? ms t).or (findMapping? ns t) :=
  List.find?_append

/-- A mapping is found by a name alike to its own. -/
theorem alike_of_findMapping? {ms : List Mapping} {t : String} {m : Mapping}
    (h : findMapping? ms t = some m) : Text.alike m.logical t = true := by
  have halike := List.find?_some h
  exact halike

/-- Alike names find the same mapping. -/
theorem findMapping?_congr (ms : List Mapping) {s t : String} (h : Text.alike s t = true) :
    findMapping? ms s = findMapping? ms t := by
  unfold findMapping?
  congr 1
  funext m
  exact Text.alike_congr_right h m.logical

theorem findMapping?_cons (m : Mapping) (ms : List Mapping) (t : String) :
    findMapping? (m :: ms) t =
      if Text.alike m.logical t = true then some m else findMapping? ms t := by
  unfold findMapping?
  rw [List.find?_cons]
  cases Text.alike m.logical t <;> rfl

/-- No two mappings are of one name, whatever the case of letters. -/
def DistinctNames (ms : List Mapping) : Prop :=
  ms.Pairwise fun a b => Text.alike a.logical b.logical = false

instance : DecidablePred DistinctNames :=
  fun ms => inferInstanceAs (Decidable (ms.Pairwise _))

/-- Of such mappings each one is what its name is mapped to. -/
theorem findMapping?_of_mem {ms : List Mapping} (h : DistinctNames ms) {m : Mapping}
    (hm : m ∈ ms) : findMapping? ms m.logical = some m := by
  induction ms with
  | nil => cases hm
  | cons c cs ih =>
      rw [DistinctNames, List.pairwise_cons] at h
      rw [findMapping?_cons]
      rcases List.mem_cons.mp hm with rfl | hm
      · rw [if_pos (Text.alike_refl _)]
      · rw [if_neg (by simp [h.1 m hm]), ih h.2 hm]

/-- Mappings of names that stand for themselves. -/
def identities (names : List String) : List Mapping := names.map Mapping.identity

/-- These are the names that stand for themselves. -/
theorem mem_identities {names : List String} {m : Mapping} :
    m ∈ identities names ↔ ∃ name ∈ names, m = .identity name := by
  simp [identities, eq_comm]

/-- Among names that stand for themselves the first alike one is found. -/
theorem findMapping?_identities (names : List String) (t : String) :
    findMapping? (identities names) t = (names.find? (Text.alike · t)).map .identity := by
  simp only [findMapping?, identities, List.find?_map]
  rfl

/-- Whether a mapping of a name is among some mappings. -/
def Maps (ms : List Mapping) (t : String) : Prop :=
  ∃ m ∈ ms, Text.alike m.logical t = true

/-- A mapping is found exactly for the names that are mapped. -/
theorem findMapping?_isSome {ms : List Mapping} {t : String} :
    (findMapping? ms t).isSome = true ↔ Maps ms t := by
  simp [findMapping?, Maps]

/-- None is found for all others. -/
theorem findMapping?_eq_none {ms : List Mapping} {t : String} :
    findMapping? ms t = none ↔ ¬ Maps ms t := by
  rw [← findMapping?_isSome, Bool.not_eq_true, Option.isSome_eq_false_iff,
    Option.isNone_iff_eq_none]

/-- A mapping of a new name comes last. -/
theorem mergeMapping_new {m : Mapping} {ms : List Mapping} (h : ¬ Maps ms m.logical) :
    mergeMapping m ms = some (ms ++ [m]) := by
  induction ms with
  | nil => rfl
  | cons c cs ih =>
      have hc : ¬ Text.alike c.logical m.logical = true :=
        fun hc => h ⟨c, List.mem_cons_self, hc⟩
      have hcs := ih fun ⟨n, hn, halike⟩ => h ⟨n, List.mem_cons_of_mem _ hn, halike⟩
      rw [mergeMapping, if_neg hc, hcs]
      rfl

/-- A name that stands for itself adds nothing to a mapping of it. -/
theorem mergeMapping_identity {name : String} {ms : List Mapping} (h : Maps ms name) :
    mergeMapping (.identity name) ms = some ms := by
  induction ms with
  | nil =>
      rcases h with ⟨m, hm, _⟩
      cases hm
  | cons c cs ih =>
      by_cases hc : Text.alike c.logical (Mapping.identity name).logical = true
      · have hidentity :
            (c == Mapping.identity name || (Mapping.identity name).isIdentity) = true := by
          simp [Mapping.identity, Mapping.isIdentity]
        rw [mergeMapping, if_pos hc, if_pos hidentity]
      · have hcs : Maps cs name := by
          rcases h with ⟨m, hm, halike⟩
          rcases List.mem_cons.mp hm with rfl | hm
          · exact absurd halike hc
          · exact ⟨m, hm, halike⟩
        rw [mergeMapping, if_neg hc, ih hcs]
        rfl

/-- Mappings of names that are new and not alike come last. -/
theorem mergeMappings_new {ms ns : List Mapping} (hnew : ∀ n ∈ ns, ¬ Maps ms n.logical)
    (hns : DistinctNames ns) : mergeMappings ms ns = some (ms ++ ns) := by
  unfold mergeMappings
  induction ns generalizing ms with
  | nil => simp
  | cons n ns ih =>
      rw [DistinctNames, List.pairwise_cons] at hns
      have hlater : ∀ k ∈ ns, ¬ Maps (ms ++ [n]) k.logical := by
        intro k hk ⟨m, hm, halike⟩
        rcases List.mem_append.mp hm with hm | hm
        · exact hnew k (List.mem_cons_of_mem _ hk) ⟨m, hm, halike⟩
        · rw [List.mem_singleton.mp hm, hns.1 k hk] at halike
          cases halike
      have hmerged := ih hlater hns.2
      rw [List.foldlM_cons, mergeMapping_new (hnew n List.mem_cons_self)]
      simpa using hmerged

/-- The names of a list that are new to some mappings, each once up to the case of letters. -/
def newNames : List Mapping → List String → List String
  | _, [] => []
  | ms, name :: names =>
      if (findMapping? ms name).isSome then newNames ms names
      else name :: newNames (ms ++ [.identity name]) names

/-- Of names that stand for themselves the new ones are added. -/
theorem mergeMappings_identities (ms : List Mapping) (names : List String) :
    mergeMappings ms (identities names) = some (ms ++ identities (newNames ms names)) := by
  unfold mergeMappings
  induction names generalizing ms with
  | nil => simp [identities, newNames]
  | cons name names ih =>
      rw [identities, List.map_cons, List.foldlM_cons, newNames]
      by_cases h : (findMapping? ms name).isSome = true
      · rw [if_pos h, mergeMapping_identity (findMapping?_isSome.mp h)]
        exact ih ms
      · rw [if_neg h, mergeMapping_new (m := .identity name) (by rwa [← findMapping?_isSome])]
        have hmerged := ih (ms ++ [.identity name])
        simpa [identities] using hmerged

/-- Names that are left out do not change what a name is mapped to. -/
theorem findMapping?_newNames (ms : List Mapping) (names : List String) (t : String) :
    findMapping? (ms ++ identities (newNames ms names)) t =
      findMapping? (ms ++ identities names) t := by
  induction names generalizing ms with
  | nil => rfl
  | cons name names ih =>
      rw [newNames]
      by_cases h : (findMapping? ms name).isSome = true
      · rw [if_pos h, ih]
        simp only [findMapping?_append, findMapping?_identities, List.find?_cons]
        cases halike : Text.alike name t with
        | false => rfl
        | true =>
            -- A name alike `t` is mapped already.
            rw [findMapping?_congr ms halike] at h
            rcases Option.isSome_iff_exists.mp h with ⟨m, hm⟩
            simp [hm]
      · rw [if_neg h]
        have hlist : ∀ rest, ms ++ identities (name :: rest) =
            ms ++ [Mapping.identity name] ++ identities rest := by
          intro rest
          simp [identities]
        rw [hlist, hlist, ih]

/-! ## Units of a route -/

namespace Route

/-- A unit is added at the end unless it is there. -/
theorem units_add (r : Route) (u : RouteUnit) :
    (r.add u).units = if u ∈ r.units then r.units else r.units ++ [u] := by
  unfold add
  by_cases h : u ∈ r.units
  · rw [if_pos h, if_pos h]
  · rw [if_neg h, if_neg h]

/-- So are several units. -/
theorem units_foldl_add (units : List RouteUnit) (r : Route) :
    (units.foldl add r).units =
      units.foldl (fun kept x => if x ∈ kept then kept else kept ++ [x]) r.units := by
  induction units generalizing r with
  | nil => rfl
  | cons u units ih => rw [List.foldl_cons, List.foldl_cons, ih, units_add]

/-- A route of given units keeps each of them once. -/
theorem units_ofUnits (units : List RouteUnit) : (ofUnits units).units = distinctly units :=
  units_foldl_add units empty

/-- No unit gets lost. -/
theorem mem_ofUnits {u : RouteUnit} {units : List RouteUnit} :
    u ∈ (ofUnits units).units ↔ u ∈ units := by
  rw [units_ofUnits, mem_distinctly]

/-- No unit is there twice. -/
theorem nodup_ofUnits (units : List RouteUnit) : (ofUnits units).units.Nodup := by
  rw [units_ofUnits]
  exact nodup_distinctly units

theorem isEmpty_iff {r : Route} : r.isEmpty = true ↔ r.units = [] := List.isEmpty_iff

theorem isEmpty_ofUnits {units : List RouteUnit} :
    (ofUnits units).isEmpty = true ↔ units = [] := by
  rw [isEmpty_iff, units_ofUnits, distinctly_eq_nil]

/-- Narrowing by candidates whose merges all succeed keeps the merged units, of which there has to
be one. -/
theorem narrow_eq {r : Route} {candidates : List RouteUnit}
    {merge : RouteUnit × RouteUnit → RouteUnit} (hr : r.units ≠ [])
    (hmerge : ∀ pair ∈ r.pairs candidates,
      mergeDataSources pair.1.dataSource pair.2.dataSource = .ok (merge pair).dataSource ∧
      mergeMappings pair.1.tables pair.2.tables = some (merge pair).tables) (rule : String) :
    r.narrow candidates rule =
      if r.pairs candidates = [] then .error (.routing (.disjointTargets rule r.dataSources))
      else .ok (ofUnits ((r.pairs candidates).map merge)) := by
  have hfold : ∀ (pairs : List (RouteUnit × RouteUnit)) (narrowed : Route),
      (∀ pair ∈ pairs,
        mergeDataSources pair.1.dataSource pair.2.dataSource = .ok (merge pair).dataSource ∧
        mergeMappings pair.1.tables pair.2.tables = some (merge pair).tables) →
      pairs.foldlM (fun r pair => r.addMerged pair.1 pair.2) narrowed =
        (.ok ((pairs.map merge).foldl add narrowed) : Except Fault Route) := by
    intro pairs
    induction pairs with
    | nil => intro narrowed _; rfl
    | cons pair pairs ih =>
        intro narrowed h
        rcases h pair List.mem_cons_self with ⟨hdataSource, htables⟩
        have hadd : narrowed.addMerged pair.1 pair.2 = .ok (narrowed.add (merge pair)) := by
          simp [addMerged, hdataSource, htables, bind, Except.bind, pure, Except.pure]
        rw [List.foldlM_cons]
        simp only [hadd, bind, Except.bind]
        exact ih _ fun q hq => h q (List.mem_cons_of_mem _ hq)
  have hnarrowed := hfold (r.pairs candidates) empty hmerge
  have hnonempty : r.isEmpty = false := by
    cases hempty : r.isEmpty with
    | false => rfl
    | true => exact absurd (isEmpty_iff.mp hempty) hr
  have hunfold : r.narrow candidates rule =
      (r.pairs candidates).foldlM (fun r pair => r.addMerged pair.1 pair.2) empty >>=
        fun narrowed =>
          if narrowed.isEmpty && !r.isEmpty then
            .error (.routing (.disjointTargets rule r.dataSources))
          else .ok narrowed := rfl
  rw [hunfold]
  simp only [hnarrowed, bind, Except.bind, hnonempty, Bool.not_false, Bool.and_true]
  show (if (ofUnits ((r.pairs candidates).map merge)).isEmpty = true then _ else _) = _
  by_cases hpairs : r.pairs candidates = []
  · rw [if_pos hpairs, if_pos (by rw [hpairs]; rfl)]
  · rw [if_neg hpairs, if_neg (by simpa [isEmpty_ofUnits] using hpairs)]
    rfl

end Route

end ShardedSql
