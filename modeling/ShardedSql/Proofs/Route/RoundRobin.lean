import ShardedSql.Proofs.Route.ReplicaTargets
import ShardedSql.Proofs.Route.Rotation

/-!
# Fairness of round robin reads

A round robin balancer advances by one for each group that is read.  A group whose balancer no other
group uses goes round its own readers, statement by statement.  Groups that share a balancer take
turns with each other, so that one of them can come to the same reader again and again.

Main results:

- Theorem `ReplicaRule.get_answer`: what one read does to the turn of a balancer.
- Theorem `ReplicaRule.timesChosen_eq_timesPicked`: the readers that a group goes to in a sequence
  of reads, when it is alone with its balancer.
- Theorem `ReplicaRule.fairTo_iff`: the groups whose readers are chosen evenly.
-/

namespace ShardedSql

open RouteUnit

namespace ReplicaRule

/-! ## Sequences of reads -/

/-- A statement that comes to the rule with its route so far. -/
structure Request where
  statement : Statement
  route : Route
  inTransaction : Bool

/-- Whether a request is a read that may leave the write data source. -/
def Request.Reads (q : Request) : Prop :=
  q.statement.MayRead q.inTransaction

/-- The groups that a request reads. -/
def groupsRead (rule : ReplicaRule) (q : Request) : List ReplicaGroup :=
  rule.readGroups q.statement q.inTransaction q.route.units

/-- The answer to a request. -/
def answer (rule : ReplicaRule) (q : Request) : Balancing (Option (List RouteUnit)) :=
  rule.route q.statement q.route q.inTransaction

/-- The turns after a sequence of requests. -/
def turnsAfter (rule : ReplicaRule) (requests : List Request) (turns : Turns) : Turns :=
  requests.foldl (fun turns q => (rule.answer q turns).2) turns

/-- Whether an answer leads a data source to another. -/
def chooses (n m : String) : Except Fault (Option (List RouteUnit)) → Bool
  | .ok (some candidates) => candidates.any (·.dataSource == ⟨n, m⟩)
  | _ => false

/-- How many requests of a sequence lead a data source to another. -/
def timesChosen (rule : ReplicaRule) (n m : String) : List Request → Turns → Nat
  | [], _ => 0
  | q :: qs, turns =>
      (chooses n m (rule.answer q turns).1).toNat +
        timesChosen rule n m qs (rule.answer q turns).2

/-- The readers of a group are chosen evenly by less than `2 ^ 63` reads. -/
def FairTo (rule : ReplicaRule) (g : ReplicaGroup) : Prop :=
  ∀ requests : List Request, (∀ q ∈ requests, q.Reads) → requests.length < Nat.pow 2 63 →
    ∀ a ∈ g.readers, ∀ b ∈ g.readers,
      rule.timesChosen g.name a requests [] ≤ rule.timesChosen g.name b requests [] + 1

/-- Every group goes round its readers. -/
def IsRoundRobin (rule : ReplicaRule) : Prop :=
  ∀ g ∈ rule.groups, g.balancer.policy = .roundRobin

/-- No other group that a request reads uses the balancer of a group. -/
def AloneIn (rule : ReplicaRule) (g : ReplicaGroup) (q : Request) : Prop :=
  ∀ h ∈ rule.groupsRead q, h.balancer.key = g.balancer.key → h = g

variable {rule : ReplicaRule} {g h : ReplicaGroup} {q : Request} {turns later : Turns}

/-- Turns are taken over from the earlier requests. -/
theorem turnsAfter_append (qs qs' : List Request) (turns : Turns) :
    rule.turnsAfter (qs ++ qs') turns = rule.turnsAfter qs' (rule.turnsAfter qs turns) :=
  List.foldl_append

/-- Choices of earlier and later requests add up. -/
theorem timesChosen_append (n m : String) (qs qs' : List Request) (turns : Turns) :
    rule.timesChosen n m (qs ++ qs') turns =
      rule.timesChosen n m qs turns + rule.timesChosen n m qs' (rule.turnsAfter qs turns) := by
  induction qs generalizing turns with
  | nil => simp [timesChosen, turnsAfter]
  | cons q qs ih =>
      rw [List.cons_append, timesChosen, timesChosen, ih, Nat.add_assoc]
      rfl

/-! ## One read -/

/-- All groups of such a rule take turns. -/
theorem policy_of_group? (hrule : rule.IsRoundRobin) {n : String}
    (hgroup : rule.group? n = some g) :
    g.balancer.policy = .roundRobin :=
  hrule g (List.mem_of_find?_eq_some hgroup)

/-- A round robin group leads every statement somewhere. -/
theorem exists_target (hpolicy : g.balancer.policy = .roundRobin) (statement : Statement)
    (inTransaction : Bool) (turns : Turns) :
    ∃ t next, g.target statement inTransaction turns = (.ok t, next) := by
  cases hwriter : g.needsWriter statement inTransaction with
  | true => exact ⟨_, _, target_writer hwriter turns⟩
  | false =>
      have hreaders := (ReplicaGroup.needsWriter_eq_false_iff.mp hwriter).2
      rcases Balancer.choose_roundRobin hpolicy hreaders turns with ⟨c, -, hchoose⟩
      exact ⟨c, _, (target_reader hwriter turns).trans hchoose⟩

/-- Such a rule always has candidates. -/
theorem exists_candidates (hrule : rule.IsRoundRobin) (statement : Statement)
    (inTransaction : Bool) (targets : Named String) (us : List RouteUnit) (turns : Turns) :
    ∃ cs later, rule.candidates statement inTransaction targets us turns = (.ok cs, later) := by
  induction us generalizing targets turns with
  | nil => exact ⟨[], turns, rfl⟩
  | cons u us ih =>
      rw [candidates]
      cases hgroup : rule.group? u.dataSource.actual with
      | none =>
          rcases ih targets turns with ⟨cs, later, hcs⟩
          exact ⟨_, later, bind_apply_eq_ok.mpr ⟨cs, later, hcs, rfl⟩⟩
      | some g =>
          cases hlookup : targets.lookup g.name with
          | some t =>
              simp only [hlookup, pure_bind]
              rcases ih ((g.name, t) :: targets) turns with ⟨cs, later, hcs⟩
              exact ⟨_, later, bind_apply_eq_ok.mpr ⟨cs, later, hcs, rfl⟩⟩
          | none =>
              simp only [hlookup]
              obtain ⟨t, next, ht⟩ :=
                exists_target (policy_of_group? hrule hgroup) statement inTransaction turns
              rcases ih ((g.name, t) :: targets) next with ⟨cs, later, hcs⟩
              exact ⟨_, later, bind_apply_eq_ok.mpr
                ⟨t, next, ht, bind_apply_eq_ok.mpr ⟨cs, later, hcs, rfl⟩⟩⟩

/-- A round robin rule answers every request: with candidates, or not at all when no unit is on a
group. -/
theorem answer_cases (hrule : rule.IsRoundRobin) (q : Request) (turns : Turns) :
    (rule.answer q turns = (.ok none, turns) ∧
      ∀ u ∈ q.route.units, rule.group? u.dataSource.actual = none) ∨
    ∃ cs later, rule.answer q turns = (.ok (some cs), later) := by
  unfold answer ReplicaRule.route
  split
  · rcases exists_candidates hrule q.statement q.inTransaction [] q.route.units turns with
      ⟨cs, later, hcs⟩
    exact .inr ⟨cs, later, bind_apply_eq_ok.mpr ⟨cs, later, hcs, rfl⟩⟩
  · rename_i hnone
    refine .inl ⟨rfl, ?_⟩
    simpa using hnone

/-- The groups that a request reads are those of its units, if they have readers. -/
theorem mem_groupsRead :
    g ∈ rule.groupsRead q ↔ (q.Reads ∧ g.readers ≠ []) ∧
      ∃ u ∈ q.route.units, rule.group? u.dataSource.actual = some g :=
  mem_readGroups

/-- They take turns among their readers. -/
theorem policy_of_groupsRead (hrule : rule.IsRoundRobin) :
    ∀ h ∈ rule.groupsRead q, h.balancer.policy = .roundRobin ∧ h.readers ≠ [] := by
  intro h hh
  rcases mem_groupsRead.mp hh with ⟨⟨-, hreaders⟩, u, -, hgroup⟩
  exact ⟨policy_of_group? hrule hgroup, hreaders⟩

/-- A group that is asked with nobody else at its balancer goes to the reader whose turn it is, and
the turn advances. -/
theorem target_of_askEach {groups : List ReplicaGroup} {target : String → String}
    (hpolicy : ∀ h ∈ groups, h.balancer.policy = .roundRobin ∧ h.readers ≠ [])
    (hnodup : groups.Nodup) (halone : ∀ h ∈ groups, h.balancer.key = g.balancer.key → h = g)
    (hasks : askEach groups turns = (.ok (groups.map fun h => target h.name), later)) :
    (g ∈ groups →
      g.readers[(turns.get g.balancer.key).toNat % g.readers.length]? = some (target g.name)) ∧
    later.get g.balancer.key = turns.get g.balancer.key + if g ∈ groups then 1 else 0 := by
  induction groups generalizing turns with
  | nil =>
      cases hasks
      simp
  | cons h groups ih =>
      rw [List.forall_mem_cons] at hpolicy halone
      rw [List.nodup_cons] at hnodup
      rcases Balancer.choose_roundRobin hpolicy.1.1 hpolicy.1.2 turns with ⟨c, hc, hchoose⟩
      rw [askEach, List.mapM_cons, List.map_cons] at hasks
      rcases bind_apply_eq_ok.mp hasks with ⟨_, _, hfirst, hafter⟩
      cases hchoose.symm.trans hfirst
      rcases bind_apply_eq_ok.mp hafter with ⟨ts, _, hrest, hcons⟩
      cases hcons
      have hothers := ih hpolicy.2 hnodup.2 halone.2 hrest
      by_cases hg : h = g
      · subst hg
        rw [if_neg hnodup.1] at hothers
        simp [hothers.2, hc]
      · -- Another group advances another balancer.
        have hkey : g.balancer.key ≠ h.balancer.key := fun heq => hg (halone.1 heq.symm)
        rw [Turns.get_set_other _ _ hkey] at hothers
        simpa [Ne.symm hg] using hothers

/-- No group is read twice by one request. -/
theorem nodup_groupsRead (rule : ReplicaRule) (q : Request) : (rule.groupsRead q).Nodup :=
  nodup_distinctly _

/-- What one read does to the turn of a balancer that one group uses. -/
theorem get_answer (hrule : rule.IsRoundRobin)
    (halone : rule.AloneIn g q) (turns : Turns) :
    (rule.answer q turns).2.get g.balancer.key =
      turns.get g.balancer.key + if g ∈ rule.groupsRead q then 1 else 0 := by
  rcases answer_cases hrule q turns with ⟨hanswer, hnone⟩ | ⟨cs, later, hanswer⟩
  · have hnot : g ∉ rule.groupsRead q := by
      intro hg
      rcases (mem_groupsRead.mp hg).2 with ⟨u, hu, hgroup⟩
      rw [hnone u hu] at hgroup
      cases hgroup
    rw [hanswer, if_neg hnot, UInt64.add_zero]
  · rcases exists_targets_of_route hanswer with ⟨target, -, -, hasks⟩
    rw [hanswer]
    exact (target_of_askEach (policy_of_groupsRead hrule) (nodup_groupsRead rule q) halone hasks).2

/-- A group that is read goes to the reader whose turn it is. -/
theorem chooses_of_mem (hrule : rule.IsRoundRobin) (hg : g ∈ rule.groupsRead q)
    (halone : rule.AloneIn g q) (turns : Turns) (m : String) :
    chooses g.name m (rule.answer q turns).1 = true ↔
      g.readers[(turns.get g.balancer.key).toNat % g.readers.length]? = some m := by
  rcases (mem_groupsRead.mp hg).2 with ⟨u, hu, hgroup⟩
  rcases answer_cases hrule q turns with ⟨-, hnone⟩ | ⟨cs, later, hanswer⟩
  · rw [hnone u hu] at hgroup
    cases hgroup
  · rcases exists_targets_of_route hanswer with ⟨target, rfl, -, hasks⟩
    rw [hanswer, (target_of_askEach (policy_of_groupsRead hrule) (nodup_groupsRead rule q) halone
      hasks).1 hg, Option.some.injEq]
    have hname : u.dataSource.actual = g.name := (name_of_group? hgroup).symm
    simp only [chooses, List.any_eq_true, mem_redirections, beq_iff_eq]
    constructor
    · rintro ⟨_, ⟨v, -, rfl⟩, hv⟩
      rw [redirection, Mapping.mk.injEq] at hv
      rw [← hv.2, hv.1]
    · rintro rfl
      exact ⟨_, ⟨u, hu, rfl⟩, by rw [redirection, hname]⟩

/-- One read of a group counts for the reader whose turn it is. -/
theorem timesChosen_of_mem (hrule : rule.IsRoundRobin) (hg : g ∈ rule.groupsRead q)
    (halone : rule.AloneIn g q) (turns : Turns) (m : String) :
    rule.timesChosen g.name m [q] turns =
      if g.readers[(turns.get g.balancer.key).toNat % g.readers.length]? = some m then 1
      else 0 := by
  have hchooses := chooses_of_mem hrule hg halone turns m
  rw [timesChosen, timesChosen, Nat.add_zero]
  split
  · rename_i hm
    rw [hchooses.mpr hm]
    rfl
  · rename_i hm
    rw [Bool.eq_false_iff.mpr (mt hchooses.mp hm)]
    rfl

/-- A group that is not read goes nowhere. -/
theorem chooses_eq_false (hrule : rule.IsRoundRobin) (hreads : q.Reads)
    (hgroup : rule.group? g.name = some g) (hreaders : g.readers ≠ [])
    (hg : g ∉ rule.groupsRead q) (turns : Turns) (m : String) :
    chooses g.name m (rule.answer q turns).1 = false := by
  rcases answer_cases hrule q turns with ⟨hanswer, -⟩ | ⟨cs, later, hanswer⟩
  · rw [hanswer]
    rfl
  · rcases exists_targets_of_route hanswer with ⟨target, rfl, -, -⟩
    rw [hanswer, chooses, List.any_eq_false]
    intro c hc heq
    rcases mem_redirections.mp hc with ⟨u, hu, rfl⟩
    rw [beq_iff_eq, redirection, Mapping.mk.injEq] at heq
    exact hg (mem_groupsRead.mpr ⟨⟨hreads, hreaders⟩, u, hu, heq.1 ▸ hgroup⟩)

/-! ## A sequence of reads -/

/-- How many requests read a group. -/
def timesRead (rule : ReplicaRule) (g : ReplicaGroup) (requests : List Request) : Nat :=
  requests.countP fun q => decide (g ∈ rule.groupsRead q)

/-- Reads of earlier and later requests add up. -/
theorem timesRead_append (qs qs' : List Request) :
    rule.timesRead g (qs ++ qs') = rule.timesRead g qs + rule.timesRead g qs' :=
  List.countP_append

/-- One request reads a group once or not at all. -/
theorem timesRead_singleton (q : Request) :
    rule.timesRead g [q] = if g ∈ rule.groupsRead q then 1 else 0 := by
  simp [timesRead]

variable {requests : List Request}

/-- The turn of a balancer counts the reads of the one group that uses it. -/
theorem get_turnsAfter (hrule : rule.IsRoundRobin)
    (halone : ∀ q ∈ requests, rule.AloneIn g q) (turns : Turns) :
    (rule.turnsAfter requests turns).get g.balancer.key =
      turns.get g.balancer.key + UInt64.ofNat (rule.timesRead g requests) := by
  induction requests using List.reverseRecOn with
  | nil => simp [turnsAfter, timesRead]
  | append_singleton qs q ih =>
      rw [List.forall_mem_append, List.forall_mem_singleton] at halone
      have hlast := get_answer hrule halone.2 (rule.turnsAfter qs turns)
      rw [ih halone.1] at hlast
      rw [turnsAfter_append, timesRead_append, timesRead_singleton, UInt64.ofNat_add,
        ← UInt64.add_assoc]
      refine hlast.trans ?_
      split <;> rfl

/-- A group that is alone with its balancer goes round its readers. -/
theorem timesChosen_eq_timesPicked (hrule : rule.IsRoundRobin)
    (hgroup : rule.group? g.name = some g) (hreaders : g.readers ≠ [])
    (hreads : ∀ q ∈ requests, q.Reads) (hlength : requests.length < Nat.pow 2 63)
    (halone : ∀ q ∈ requests, rule.AloneIn g q) (m : String) :
    rule.timesChosen g.name m requests [] =
      timesPicked g.readers (rule.timesRead g requests) m := by
  induction requests using List.reverseRecOn with
  | nil => rfl
  | append_singleton qs q ih =>
      rw [List.forall_mem_append, List.forall_mem_singleton] at hreads halone
      rw [List.length_append, List.length_singleton] at hlength
      have hturn := get_turnsAfter hrule halone.1 []
      have hcount : rule.timesRead g qs ≤ qs.length := List.countP_le_length
      -- So few reads do not take the turn round to zero.
      have hsize : Nat.pow 2 63 < UInt64.size := by decide
      have htoNat : ((rule.turnsAfter qs []).get g.balancer.key).toNat = rule.timesRead g qs := by
        have hzero : (Turns.get [] g.balancer.key) = 0 := rfl
        rw [hturn, hzero, UInt64.zero_add, UInt64.toNat_ofNat_of_lt']
        exact Nat.lt_of_le_of_lt hcount (by omega)
      rw [timesChosen_append, ih hreads.1 (by omega) halone.1, timesRead_append,
        timesRead_singleton]
      by_cases hg : g ∈ rule.groupsRead q
      · rw [if_pos hg, timesPicked_succ, timesChosen_of_mem hrule hg halone.2, htoNat]
      · rw [if_neg hg, timesChosen, timesChosen,
          chooses_eq_false hrule hreads.2 hgroup hreaders hg]
        rfl

/-! ## Groups that share a balancer -/

/-- A read on one data source. -/
def readOf (n : String) : Request :=
  { statement := { sql := "SELECT 1" }
    route := ⟨[{ dataSource := .identity n, tables := [] }]⟩
    inTransaction := false }

theorem reads_readOf (n : String) : (readOf n).Reads := ⟨rfl, rfl, rfl⟩

/-- A read of one data source reads its group and no other. -/
theorem mem_groupsRead_readOf {n : String} :
    h ∈ rule.groupsRead (readOf n) ↔ h.readers ≠ [] ∧ rule.group? n = some h := by
  rw [mem_groupsRead, and_iff_right (reads_readOf n)]
  simp [readOf, Mapping.identity]

/-- So many of these reads read the group as often. -/
theorem timesRead_replicate (hgroup : rule.group? g.name = some g) (hreaders : g.readers ≠ [])
    (n : Nat) : rule.timesRead g (List.replicate n (readOf g.name)) = n := by
  simp [timesRead, List.countP_replicate, mem_groupsRead_readOf, hreaders, hgroup]

/-- Reads on one group come to no other group. -/
theorem aloneIn_readOf (hgroup : rule.group? g.name = some g) :
    rule.AloneIn g (readOf g.name) := by
  intro h hh _
  rw [mem_groupsRead_readOf, hgroup] at hh
  exact (Option.some.inj hh.2).symm

/-- The group is alone with its balancer in these reads. -/
theorem aloneIn_replicate (hgroup : rule.group? g.name = some g) (n : Nat) :
    ∀ q ∈ List.replicate n (readOf g.name), rule.AloneIn g q := by
  intro q hq
  rw [List.eq_of_mem_replicate hq]
  exact aloneIn_readOf hgroup

/-- Each of these reads takes a turn. -/
theorem get_turnsAfter_replicate (hrule : rule.IsRoundRobin)
    (hgroup : rule.group? g.name = some g) (hreaders : g.readers ≠ []) (n : Nat) (turns : Turns) :
    (rule.turnsAfter (List.replicate n (readOf g.name)) turns).get g.balancer.key =
      turns.get g.balancer.key + UInt64.ofNat n := by
  rw [get_turnsAfter hrule (aloneIn_replicate hgroup n), timesRead_replicate hgroup hreaders]

/-- A read of the group chooses the reader whose turn it is. -/
theorem timesChosen_readOf (hrule : rule.IsRoundRobin) (hgroup : rule.group? g.name = some g)
    (hreaders : g.readers ≠ []) (turns : Turns) (m : String) :
    rule.timesChosen g.name m [readOf g.name] turns =
      if g.readers[(turns.get g.balancer.key).toNat % g.readers.length]? = some m then 1 else 0 :=
  timesChosen_of_mem hrule (mem_groupsRead_readOf.mpr ⟨hreaders, hgroup⟩) (aloneIn_readOf hgroup)
    turns m

/-- Reads on another group are none on this one. -/
theorem timesChosen_replicate_other (hrule : rule.IsRoundRobin)
    (hgroup : rule.group? g.name = some g) (hreaders : g.readers ≠ []) {n : String}
    (hother : n ≠ g.name) (m : String) (k : Nat) (turns : Turns) :
    rule.timesChosen g.name m (List.replicate k (readOf n)) turns = 0 := by
  have hnot : g ∉ rule.groupsRead (readOf n) := by
    intro hg
    exact hother (name_of_group? (mem_groupsRead_readOf.mp hg).2).symm
  induction k generalizing turns with
  | zero => rfl
  | succ k ih =>
      rw [List.replicate_succ, timesChosen, ih,
        chooses_eq_false hrule (reads_readOf n) hgroup hreaders hnot]
      rfl

/-- A read on a group, one round of its balancer later the next one, and reads on another group in
between. -/
def roundOf (g h : ReplicaGroup) : List Request :=
  [readOf g.name] ++ (List.replicate (g.readers.length - 1) (readOf h.name) ++ [readOf g.name])

/-- All requests of a round read. -/
theorem reads_roundOf : ∀ q ∈ roundOf g h, q.Reads := by
  intro q hq
  simp only [roundOf, List.mem_append, List.mem_singleton, List.mem_replicate] at hq
  rcases hq with rfl | ⟨-, rfl⟩ | rfl <;> exact reads_readOf _

/-- A round has one request more than there are readers. -/
theorem length_roundOf (hg : g.readers ≠ []) : (roundOf g h).length = g.readers.length + 1 := by
  have hpos : 0 < g.readers.length := List.length_pos_iff.mpr hg
  simp only [roundOf, List.length_append, List.length_singleton, List.length_replicate]
  omega

/-- When the other group uses the same balancer, the first reader is chosen both times. -/
theorem timesChosen_roundOf (hrule : rule.IsRoundRobin) (hgroup : rule.group? g.name = some g)
    (hreaders : g.readers ≠ []) (hlength : g.readers.length < UInt64.size)
    (hother : rule.group? h.name = some h) (hname : h.name ≠ g.name) (hreaders' : h.readers ≠ [])
    (hkey : h.balancer.key = g.balancer.key) (m : String) :
    rule.timesChosen g.name m (roundOf g h) [] = if g.readers[0]? = some m then 2 else 0 := by
  have hpos : 0 < g.readers.length := List.length_pos_iff.mpr hreaders
  -- The first read has turn zero, and the last one that of the first reader again.
  have hfirst : (Turns.get [] g.balancer.key).toNat % g.readers.length = 0 := Nat.zero_mod _
  have hlast : ((rule.turnsAfter (List.replicate (g.readers.length - 1) (readOf h.name))
      (rule.turnsAfter [readOf g.name] [])).get g.balancer.key).toNat = g.readers.length := by
    have hone := get_turnsAfter_replicate hrule hgroup hreaders 1 []
    have hrest := get_turnsAfter_replicate hrule hother hreaders' (g.readers.length - 1)
      (rule.turnsAfter [readOf g.name] [])
    have hzero : Turns.get [] g.balancer.key = 0 := rfl
    rw [hzero, UInt64.zero_add] at hone
    rw [hkey] at hrest
    rw [hrest.trans (congrArg (· + _) hone), ← UInt64.ofNat_add, Nat.add_sub_cancel' hpos,
      UInt64.toNat_ofNat_of_lt' hlength]
  rw [roundOf, timesChosen_append, timesChosen_append,
    timesChosen_replicate_other hrule hgroup hreaders hname,
    timesChosen_readOf hrule hgroup hreaders, timesChosen_readOf hrule hgroup hreaders, hlast,
    Nat.mod_self, hfirst]
  split <;> rfl

/-- When another group uses the same balancer, it can take all turns but the first of each round,
so that only the first reader is left. -/
theorem not_fairTo_of_shared (hrule : rule.IsRoundRobin) (hgroup : rule.group? g.name = some g)
    (hlength : g.readers.length < Nat.pow 2 62) {a b : String} (ha : a ∈ g.readers)
    (hb : b ∈ g.readers) (hab : a ≠ b) (hother : rule.group? h.name = some h)
    (hname : h.name ≠ g.name) (hreaders : h.readers ≠ [])
    (hkey : h.balancer.key = g.balancer.key) : ¬ rule.FairTo g := by
  intro hfair
  have hg : g.readers ≠ [] := List.ne_nil_of_mem ha
  have hpos : 0 < g.readers.length := List.length_pos_iff.mpr hg
  have hpow : Nat.pow 2 62 < UInt64.size ∧ Nat.pow 2 62 + 1 < Nat.pow 2 63 := by decide
  have hshort : (roundOf g h).length < Nat.pow 2 63 := by
    rw [length_roundOf hg]
    omega
  obtain ⟨later, hmem, hlater⟩ : ∃ m ∈ g.readers, g.readers[0]? ≠ some m := by
    by_cases hfirst : g.readers[0]? = some a
    · exact ⟨b, hb, fun hsame => hab (Option.some.inj (hfirst.symm.trans hsame))⟩
    · exact ⟨a, ha, hfirst⟩
  have hcount := timesChosen_roundOf hrule hgroup hg (by omega) hother hname hreaders hkey
  have hle := hfair (roundOf g h) reads_roundOf hshort g.readers[0] (List.getElem_mem hpos) later
    hmem
  rw [hcount, hcount, if_pos (List.getElem?_eq_getElem hpos), if_neg hlater] at hle
  omega

/-! ## Configured groups -/

end ReplicaRule

/-- The load balancer that a configuration names for a group. -/
def ReplicaSpec.balancer? (spec : ReplicaSpec) (n : String) : Option String :=
  (spec.groups.find? (·.name == n)).bind (·.balancer)

/-- Whether a configuration names one load balancer for two groups. -/
def ReplicaSpec.SharesBalancer (spec : ReplicaSpec) (n m : String) : Prop :=
  ∃ b, spec.balancer? n = some b ∧ spec.balancer? m = some b

/-- Whose turn the balancer of a group advances. -/
def ReplicaGroupSpec.balancerKey (spec : ReplicaGroupSpec) (configuration position : Nat) :
    BalancerKey :=
  (spec.balancer.map (.named configuration)).getD (.own configuration position)

namespace ReplicaRule

variable {policies : Named BalancePolicy} {configuration : Nat} {spec : ReplicaSpec}

/-- A group that is set up has its name, and the balancer that its configuration asks for. -/
theorem group_of_setUp {position : Nat} {groupSpec : ReplicaGroupSpec}
    (hsetUp : ReplicaGroup.setUp policies configuration position groupSpec = .ok g) :
    g.name = groupSpec.name ∧ g.balancer.key = groupSpec.balancerKey configuration position := by
  unfold ReplicaGroup.setUp at hsetUp
  split at hsetUp
  · cases hsetUp
  · unfold ReplicaGroupSpec.balancerKey
    cases hnamed : groupSpec.balancer with
    | none =>
        simp only [hnamed] at hsetUp
        cases hsetUp
        exact ⟨rfl, rfl⟩
    | some name =>
        simp only [hnamed] at hsetUp
        split at hsetUp
        · cases hsetUp
          exact ⟨rfl, rfl⟩
        · cases hsetUp

/-- Lists whose elements correspond have their first elements with a property at the same place. -/
theorem exists_find?_of_forall₂ {α β : Type} {R : α → β → Prop} {xs : List α} {ys : List β}
    (hall : List.Forall₂ R xs ys) {p : α → Bool} {p' : β → Bool}
    (hsame : ∀ x y, R x y → p x = p' y) {y : β} (hy : ys.find? p' = some y) :
    ∃ x, xs.find? p = some x ∧ R x y := by
  induction hall with
  | nil => cases hy
  | cons hfirst hrest ih =>
      rw [List.find?_cons] at hy ⊢
      rw [← hsame _ _ hfirst] at hy
      split at hy
      · cases hy
        exact ⟨_, rfl, hfirst⟩
      · exact ih hy

/-- The group of a name is that of the first configured one of this name. -/
theorem exists_spec_of_group? (hsetUp : setUp policies configuration spec = .ok rule) {n : String}
    (hgroup : rule.group? n = some g) :
    ∃ position groupSpec, spec.groups[position]? = some groupSpec ∧
      spec.groups.find? (·.name == n) = some groupSpec ∧ groupSpec.name = n ∧
      g.balancer.key = groupSpec.balancerKey configuration position := by
  rcases Except.bind_eq_ok.mp hsetUp with ⟨groups, hgroups, hrule⟩
  cases hrule
  rcases exists_find?_of_forall₂ (p := fun entry => entry.1.name == n) (mapM_eq_ok_iff.mp hgroups)
    (fun entry g hg => by rw [(group_of_setUp hg).1]) hgroup with
    ⟨⟨groupSpec, position⟩, hentry, hgroupSetUp⟩
  have hfirst : spec.groups.find? (·.name == n) = some groupSpec := by
    rw [← List.zipIdx_map_fst 0 spec.groups, List.find?_map]
    exact congrArg (Option.map Prod.fst) hentry
  have hname := List.find?_some hfirst
  exact ⟨position, groupSpec, List.mem_zipIdx_iff_getElem?.mp (List.mem_of_find?_eq_some hentry),
    hfirst, beq_iff_eq.mp hname, (group_of_setUp hgroupSetUp).2⟩

/-- Two groups use one balancer when the configuration names it for both. -/
theorem key_eq_iff (hsetUp : setUp policies configuration spec = .ok rule)
    (hgroup : rule.group? g.name = some g) (hother : rule.group? h.name = some h)
    (hname : h.name ≠ g.name) :
    h.balancer.key = g.balancer.key ↔ spec.SharesBalancer g.name h.name := by
  rcases exists_spec_of_group? hsetUp hgroup with ⟨i, first, hi, hfirst, hfirstName, hkey⟩
  rcases exists_spec_of_group? hsetUp hother with ⟨j, second, hj, hsecond, hsecondName, hkey'⟩
  have hplaces : j ≠ i := by
    rintro rfl
    rw [hi] at hj
    rw [← hfirstName, ← hsecondName, Option.some.inj hj] at hname
    exact hname rfl
  simp only [ReplicaSpec.SharesBalancer, ReplicaSpec.balancer?, hfirst, hsecond, Option.bind_some,
    hkey, hkey', ReplicaGroupSpec.balancerKey]
  cases first.balancer <;> cases second.balancer <;> simp [Ne.symm hplaces, eq_comm]

/-- A group's readers are chosen evenly when they are listed evenly and the group shares its load
balancer with no other group that is read, or has but one reader; and in no other case. -/
theorem fairTo_iff (hsetUp : setUp policies configuration spec = .ok rule)
    (hrule : rule.IsRoundRobin) (hgroup : rule.group? g.name = some g)
    (hlength : g.readers.length < Nat.pow 2 62) :
    rule.FairTo g ↔ EvenlyListed g.readers ∧
      ((∀ a ∈ g.readers, ∀ b ∈ g.readers, a = b) ∨
        ∀ h, rule.group? h.name = some h → h.name ≠ g.name → h.readers ≠ [] →
          ¬ spec.SharesBalancer g.name h.name) := by
  constructor
  · intro hfair
    refine ⟨evenlyListed_of_timesPicked ?_, ?_⟩
    · intro n hn a ha b hb
      have hreaders : g.readers ≠ [] := List.ne_nil_of_mem ha
      have hreads : ∀ q ∈ List.replicate n (readOf g.name), q.Reads :=
        fun q hq => List.eq_of_mem_replicate hq ▸ reads_readOf g.name
      have hshort : (List.replicate n (readOf g.name)).length < Nat.pow 2 63 := by
        have hpow : Nat.pow 2 63 = 2 * Nat.pow 2 62 := by decide
        rw [List.length_replicate]
        omega
      have hle := hfair _ hreads hshort a ha b hb
      have hpicked := timesChosen_eq_timesPicked hrule hgroup hreaders hreads hshort
        (aloneIn_replicate hgroup n)
      rwa [hpicked, hpicked, timesRead_replicate hgroup hreaders] at hle
    · by_contra hnot
      push Not at hnot
      rcases hnot with ⟨⟨a, ha, b, hb, hab⟩, h, hother, hname, hreaders, hshares⟩
      exact not_fairTo_of_shared hrule hgroup hlength ha hb hab hother hname hreaders
        ((key_eq_iff hsetUp hgroup hother hname).mpr hshares) hfair
  · rintro ⟨heven, honly | hunshared⟩ requests hreads hshort a ha b hb
    · rw [honly a ha b hb]
      exact Nat.le_succ _
    · have halone : ∀ q ∈ requests, rule.AloneIn g q := by
        intro q hq h hh hkey
        rcases mem_groupsRead.mp hh with ⟨⟨-, hreaders⟩, u, -, hfound⟩
        have hother : rule.group? h.name = some h := name_of_group? hfound ▸ hfound
        by_cases hname : h.name = g.name
        · rw [hname, hgroup] at hother
          exact (Option.some.inj hother).symm
        · exact absurd ((key_eq_iff hsetUp hgroup hother hname).mp hkey)
            (hunshared h hother hname hreaders)
      have hpicked := timesChosen_eq_timesPicked hrule hgroup (List.ne_nil_of_mem ha) hreads hshort
        halone
      rw [hpicked, hpicked]
      exact heven.timesPicked_le ha hb _

/-- Two groups with two readers each, both with the load balancer of the given name or with their
own. -/
def pairSpec (balancer : Option String) : ReplicaSpec :=
  let group (name : String) : ReplicaGroupSpec :=
    { name, writer := name ++ "_w", readers := [name ++ "_a", name ++ "_b"], balancer }
  { groups := [group "rw_0", group "rw_1"] }

/-- A read on both of them. -/
def readOfBoth : Request :=
  { statement := { sql := "SELECT 1" }
    route := ⟨["rw_0", "rw_1"].map fun ds => { dataSource := .identity ds, tables := [] }⟩
    inTransaction := false }

/-- Groups with their own load balancers are read evenly. -/
theorem fairTo_iff_own :
    setUp [] 0 (pairSpec none) = .ok (pairRule (.own 0 0) (.own 0 1)) ∧
    (pairRule (.own 0 0) (.own 0 1)).IsRoundRobin ∧
    (pairRule (.own 0 0) (.own 0 1)).group? "rw_0" = some (pairGroup "rw_0" (.own 0 0)) ∧
    (pairGroup "rw_0" (.own 0 0)).readers.length < Nat.pow 2 62 ∧
    (pairRule (.own 0 0) (.own 0 1)).FairTo (pairGroup "rw_0" (.own 0 0)) := by
  have hsetUp : setUp [] 0 (pairSpec none) = .ok (pairRule (.own 0 0) (.own 0 1)) := rfl
  have hrule : (pairRule (.own 0 0) (.own 0 1)).IsRoundRobin := by
    unfold IsRoundRobin
    decide
  have hlength : (pairGroup "rw_0" (.own 0 0)).readers.length < Nat.pow 2 62 := by decide
  refine ⟨hsetUp, hrule, rfl, hlength, (fairTo_iff hsetUp hrule rfl hlength).mpr ⟨?_, .inr ?_⟩⟩
  · exact evenlyListed_of_nodup (by decide)
  · rintro h - - - ⟨b, hb, -⟩
    cases hb

/-- Two reads on both groups, which share a load balancer, go to the first reader of the one group
each time. -/
theorem not_fairTo_sharing :
    setUp [("shared", .roundRobin)] 0 (pairSpec (some "shared")) = .ok sharingRule ∧
    sharingRule.IsRoundRobin ∧ readOfBoth.Reads ∧
    sharingRule.timesChosen "rw_0" "rw_0_a" [readOfBoth, readOfBoth] [] = 2 ∧
    sharingRule.timesChosen "rw_0" "rw_0_b" [readOfBoth, readOfBoth] [] = 0 ∧
    ∃ g, sharingRule.group? "rw_0" = some g ∧ ¬ sharingRule.FairTo g := by
  have hrule : sharingRule.IsRoundRobin := by
    unfold IsRoundRobin
    decide
  have hreads : readOfBoth.Reads := ⟨rfl, rfl, rfl⟩
  have hfirst : sharingRule.timesChosen "rw_0" "rw_0_a" [readOfBoth, readOfBoth] [] = 2 := rfl
  have hsecond : sharingRule.timesChosen "rw_0" "rw_0_b" [readOfBoth, readOfBoth] [] = 0 := rfl
  refine ⟨rfl, hrule, hreads, hfirst, hsecond, _, rfl, ?_⟩
  intro hfair
  have hle := hfair [readOfBoth, readOfBoth] (by simp [hreads]) (by decide) "rw_0_a" (by decide)
    "rw_0_b" (by decide)
  rw [show (pairGroup "rw_0" (.named 0 "shared")).name = "rw_0" from rfl, hfirst, hsecond] at hle
  omega

end ReplicaRule

end ShardedSql
