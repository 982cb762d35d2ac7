import ShardedSql.Proofs.Batch.Runs

/-!
# Clearing of batches

The execution of a batch leaves an empty batch behind, whatever it comes to, with one exception: a
batch whose transaction cannot be started is kept.  What is added afterwards is run together with
what was left behind, and has one count for each entry of both.

Main results:

- Theorem `Session.continues_of_batch`: what a batch left behind comes to later.
- Theorem `Session.executeBatch_clears`: which batch is left behind.
-/

namespace ShardedSql

variable {b : Backend}

namespace Session

variable {db : Database} {s s' : Session}

/-- What is added to a batch that was left behind is run together with it, and has one count for
each entry of both; where nothing is added, nothing is run. -/
def Continues (db : Database) (s : Session) (left : Batch) : Prop :=
  ∀ additions s', Adding db s additions s' → ∀ b h, ∃ events,
    (s'.executeBatch db b h).history = h ++ events ∧
    (additions = [] → (s'.executeBatch db b h).answer = .ok [] ∧ events = []) ∧
    (additions ≠ [] →
      (∃ skipped, Serves (left.bounds ++ additions.flatMap (·.units)) skipped
        (s'.executeBatch db b h).answer events) ∧
      ∀ counts, (s'.executeBatch db b h).answer = .ok counts →
        counts.length = left.size + additions.length)

/-- What a batch that was left behind comes to. -/
theorem continues_of_batch (hmode : s.batchMode = none) : s.Continues db s.batch := by
  intro additions s' hadding b h
  have hmodes := hadding.batchMode_eq
  rw [hmode, Option.or_none] at hmodes
  cases hlast : additions.getLast? with
  | none =>
      rw [hlast] at hmodes
      rw [executeBatch_of_none db b h hmodes]
      rw [List.getLast?_eq_none_iff] at hlast
      exact ⟨[], (List.append_nil h).symm, fun _ => ⟨rfl, rfl⟩, fun hne => absurd hlast hne⟩
  | some last =>
      rw [hlast] at hmodes
      rcases executeBatch_adds db b h hmodes with ⟨events, hhistory, hexecutes⟩
      have hsize : s'.batch.size = s.batch.size + additions.length := by
        rw [hadding.batch_eq, Batch.size_collect]
      have hbounds : s'.batch.bounds.Perm (s.batch.bounds ++ additions.flatMap (·.units)) := by
        rw [hadding.batch_eq]
        exact Batch.bounds_collect_perm s.batch additions
      have hsome : additions ≠ [] := by
        rintro rfl
        cases hlast
      have hlength := List.length_pos_of_ne_nil hsome
      refine ⟨events, hhistory, fun hnil => absurd hnil hsome, fun _ => ⟨?_, ?_⟩⟩
      · rcases hexecutes.serves (by omega) with ⟨skipped, hserves⟩
        exact ⟨skipped, hserves.units.trans hbounds, hserves.ok⟩
      · rw [← hsize]
        exact hexecutes.length

/-- The execution of a batch leaves an empty batch behind unless its transaction cannot be started;
then the batch is left as it was. -/
theorem executeBatch_clears (db : Database) (b : Backend) (s : Session) (h : History) :
    ∃ events, (s.executeBatch db b h).history = h ++ events ∧
      ((∀ reason, .controlled .start (some reason) ∉ events) →
        (s.executeBatch db b h).session.batch = .empty ∧
        (s.executeBatch db b h).session.Continues db .empty) ∧
      ((∃ reason, .controlled .start (some reason) ∈ events) →
        s.batch ≠ .empty ∧ (s.executeBatch db b h).session.batch = s.batch ∧
        (s.executeBatch db b h).session.Continues db s.batch) := by
  have hleft : ∀ {session : Session} {batch : Batch}, session.batch = batch →
      session.batchMode = none → session.batch = batch ∧ session.Continues db batch := by
    rintro session _ rfl hmode
    exact ⟨rfl, continues_of_batch hmode⟩
  cases hmode : s.batchMode with
  | none =>
      rw [executeBatch_of_none db b h hmode]
      refine ⟨[], (List.append_nil h).symm, fun _ => hleft rfl hmode, ?_⟩
      rintro ⟨reason, ⟨⟩⟩
  | some mode =>
      have hends := executeBatch_ends db b h hmode fun h' =>
        s.batch.execute_adds b db.limits db.runner db.report mode.accumulates h'
      generalize s.executeBatch db b h = reply at hends
      cases hends with
      | @kept reason session hneeds hbatch hmode =>
          refine ⟨_, rfl, fun hnever => absurd (List.mem_singleton_self _) (hnever reason), ?_⟩
          refine fun _ => ⟨fun hempty => ?_, hleft hbatch hmode⟩
          rcases needsTransaction_iff.mp hneeds with ⟨-, -, -, x, hx, -⟩
          rw [hempty] at hx
          cases hx
      | concluded hbatch hmode hends =>
          refine ⟨_, rfl, fun _ => hleft hbatch hmode, ?_⟩
          rintro ⟨reason, hmem⟩
          rcases List.mem_cons.mp hmem with heq | hmem
          · cases heq
          · exact absurd hmem (hends.start_notMem (fun _ _ hwork => hwork.1) _)
      | plain hbatch hmode hwork =>
          refine ⟨_, rfl, fun _ => hleft hbatch hmode, ?_⟩
          rintro ⟨reason, hmem⟩
          cases hwork.1 _ hmem

end Session

/-! ### A batch that is kept -/

/-- A backend on which the first transaction cannot be started. -/
def Backend.busyAtFirst : Backend :=
  { Backend.untroubled with
    control := fun h _ => if h = [] then .error "too many clients" else .ok () }

/-- A statement that deletes the orders of one user. -/
def userPurge : Statement :=
  { sql := "DELETE FROM t_order WHERE user_id = 2", kind := .delete, tables := ["t_order"]
    conditions := [{ table := "t_order", column := "user_id", values := [.int 2] }] }

namespace Session

/-- The execution of a batch of `orderPurge` while no transaction can be started. -/
def purgeOrders : Reply (List UInt64) :=
  (Session.addBatch orderDatabase .busyAtFirst orderPurge {} []).session.executeBatch orderDatabase
    .busyAtFirst []

/-- The execution of a batch of `userPurge` after that. -/
def purgeUser : Reply (List UInt64) :=
  (purgeOrders.session.addBatch orderDatabase .busyAtFirst userPurge
    purgeOrders.history).session.executeBatch orderDatabase .busyAtFirst purgeOrders.history

/-- The batch is not cleared: `orderPurge` is run together with the one statement added later, and
there are two counts. -/
theorem batch_not_cleared_purgeOrders :
    purgeOrders.session.batch ≠ .empty ∧ purgeUser.answer.toOption = some [2, 1] ∧
    purgeUser.history.calls.map (·.unit) =
      [⟨"ds_0", ⟨"DELETE FROM t_order_0", []⟩⟩,
        ⟨"ds_0", ⟨"DELETE FROM t_order_0 WHERE user_id = 2", []⟩⟩,
        ⟨"ds_1", ⟨"DELETE FROM t_order_1", []⟩⟩] := by
  decide +kernel

end Session

end ShardedSql
