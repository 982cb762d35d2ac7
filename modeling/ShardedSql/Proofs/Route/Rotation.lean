import Mathlib.Data.List.Nodup
import ShardedSql.Algorithm.Balancer

/-!
# Rotation

A round robin balancer goes round its candidates.  What it picks is even as long as the list of
candidates is: when each of them is listed equally often, and none more than once before another.

Main results:

- Theorem `Balancer.choose_roundRobin`: one pick.
- Theorem `timesPicked_add`: once round adds what is listed.
- Theorem `EvenlyListed.timesPicked_le`: going round an even list picks evenly.
- Theorem `evenlyListed_of_timesPicked`: a list that is picked evenly is even.
-/

namespace ShardedSql

/-! ## Turns -/

namespace Turns

variable (turns : Turns) (turn : UInt64) {key other : BalancerKey}

@[simp]
theorem get_set_self : (turns.set key turn).get key = turn := by
  simp [get, set]

/-- Other balancers keep their turns. -/
@[simp]
theorem get_set_other (h : other ≠ key) : (turns.set key turn).get other = turns.get other := by
  have hrest : ∀ entries : Turns,
      (entries.filter (·.1 != key)).lookup other = entries.lookup other := by
    intro entries
    induction entries with
    | nil => rfl
    | cons entry entries ih =>
        rcases entry with ⟨first, count⟩
        by_cases hkey : first = key
        · have hother : (other == first) = false := beq_false_of_ne (hkey ▸ h)
          simp only [List.filter_cons, hkey, bne_self_eq_false, Bool.false_eq_true, if_false, ih]
          rw [List.lookup_cons, ← hkey, hother]
        · rw [List.filter_cons, if_pos (by simp [hkey]), List.lookup_cons, List.lookup_cons, ih]
  simp [get, set, List.lookup_cons, beq_false_of_ne h, hrest]

end Turns

/-- A round robin balancer picks the candidate at its turn, which advances by one. -/
theorem Balancer.choose_roundRobin {b : Balancer} (hpolicy : b.policy = .roundRobin)
    {candidates : List String} (hcandidates : candidates ≠ []) (turns : Turns) :
    ∃ c, candidates[(turns.get b.key).toNat % candidates.length]? = some c ∧
      b.choose candidates turns = (.ok c, turns.set b.key (turns.get b.key + 1)) := by
  have hlt : (turns.get b.key).toNat % candidates.length < candidates.length :=
    Nat.mod_lt _ (List.length_pos_iff.mpr hcandidates)
  refine ⟨_, List.getElem?_eq_getElem hlt, ?_⟩
  simp only [choose, pick, hpolicy, BalancePolicy.pick, List.getElem?_eq_getElem hlt]

/-! ## Going round a list -/

/-- The first picks of a rotation. -/
def rotation (candidates : List String) (n : Nat) : List (Option String) :=
  (List.range n).map fun i => candidates[i % candidates.length]?

/-- How often a candidate is among the first picks. -/
def timesPicked (candidates : List String) (n : Nat) (c : String) : Nat :=
  (rotation candidates n).count (some c)

variable {candidates : List String} {c d : String}

/-- Each further turn picks one more candidate. -/
theorem timesPicked_succ (candidates : List String) (n : Nat) (c : String) :
    timesPicked candidates (n + 1) c =
      timesPicked candidates n c +
        if candidates[n % candidates.length]? = some c then 1 else 0 := by
  unfold timesPicked rotation
  rw [List.range_succ, List.map_append, List.count_append, List.map_singleton,
    List.count_singleton]
  simp only [beq_iff_eq]

/-- Before the end is reached the picks are those listed. -/
theorem timesPicked_take {n : Nat} (hn : n ≤ candidates.length) (c : String) :
    timesPicked candidates n c = (candidates.take n).count c := by
  induction n with
  | zero => simp [timesPicked, rotation]
  | succ n ih =>
      have hlt : n < candidates.length := hn
      rw [timesPicked_succ, ih (Nat.le_of_lt hlt), Nat.mod_eq_of_lt hlt,
        List.take_add_one, List.count_append]
      rw [List.getElem?_eq_getElem hlt, Option.toList_some, List.count_singleton]
      simp only [beq_iff_eq, Option.some.injEq]

/-- Once round adds what is listed. -/
theorem timesPicked_add (candidates : List String) (n : Nat) (c : String) :
    timesPicked candidates (candidates.length + n) c =
      candidates.count c + timesPicked candidates n c := by
  induction n with
  | zero =>
      rw [Nat.add_zero, timesPicked_take (Nat.le_refl _), List.take_length]
      rfl
  | succ n ih =>
      rw [← Nat.add_assoc, timesPicked_succ, ih, timesPicked_succ, Nat.add_mod_left, Nat.add_assoc]

/-- A list that is even all the way round. -/
structure EvenlyListed (candidates : List String) : Prop where
  overall : ∀ c ∈ candidates, ∀ d ∈ candidates, candidates.count c = candidates.count d
  /-- Up to any place no candidate is listed more than once more often than another. -/
  upTo : ∀ n, ∀ c ∈ candidates, ∀ d ∈ candidates,
    (candidates.take n).count c ≤ (candidates.take n).count d + 1

/-- Candidates without repetitions are evenly listed. -/
theorem evenlyListed_of_nodup (h : candidates.Nodup) : EvenlyListed candidates where
  overall c hc d hd := by
    rw [List.count_eq_one_of_mem h hc, List.count_eq_one_of_mem h hd]
  upTo n c _ d _ := by
    have hle := List.nodup_iff_count_le_one.mp (h.sublist (List.take_sublist n candidates)) c
    omega

/-- Going round an even list picks evenly. -/
theorem EvenlyListed.timesPicked_le (h : EvenlyListed candidates) (hc : c ∈ candidates)
    (hd : d ∈ candidates) (n : Nat) :
    timesPicked candidates n c ≤ timesPicked candidates n d + 1 := by
  induction n using Nat.strongRecOn with
  | ind n ih =>
      rcases Nat.lt_or_ge candidates.length n with hround | hshort
      · -- The last time round has added the same for both.
        obtain ⟨m, rfl⟩ := Nat.exists_eq_add_of_lt hround
        have hpos : 0 < candidates.length := List.length_pos_of_mem hc
        have hlast := ih (m + 1) (by omega)
        rw [Nat.add_assoc, timesPicked_add, timesPicked_add, h.overall c hc d hd]
        omega
      · rw [timesPicked_take hshort, timesPicked_take hshort]
        exact h.upTo n c hc d hd

/-- A list is even when going round it twice picks evenly. -/
theorem evenlyListed_of_timesPicked
    (h : ∀ n ≤ 2 * candidates.length, ∀ c ∈ candidates, ∀ d ∈ candidates,
      timesPicked candidates n c ≤ timesPicked candidates n d + 1) :
    EvenlyListed candidates := by
  have htwice : ∀ c, timesPicked candidates (2 * candidates.length) c = 2 * candidates.count c := by
    intro c
    rw [Nat.two_mul, timesPicked_add, timesPicked_take (Nat.le_refl _), List.take_length]
    omega
  constructor
  · intro c hc d hd
    have hle := h _ (Nat.le_refl _) c hc d hd
    have hge := h _ (Nat.le_refl _) d hd c hc
    rw [htwice, htwice] at hle hge
    omega
  · intro n c hc d hd
    rcases Nat.lt_or_ge candidates.length n with hround | hshort
    · have hle := h candidates.length (by omega) c hc d hd
      rw [timesPicked_take (Nat.le_refl _), timesPicked_take (Nat.le_refl _)] at hle
      rwa [List.take_of_length_le (Nat.le_of_lt hround), ← List.take_length (l := candidates)]
    · have hle := h n (by omega) c hc d hd
      rwa [timesPicked_take hshort, timesPicked_take hshort] at hle

end ShardedSql
