import HealthCheckManager.Proof.Relevance

/-!
# No relevant change is suppressed

Along any run of a watched object, every segment in which no update passes is
covered by the object's relevance preorder (`Relevance.covers_of_quiet`): what
a reconciliation saw at the start of the segment still holds at its end.

* `cluster_runs_signal_relevant_changes`: a CAPI Cluster or SveltosCluster
  keeps deeply equal labels, stays paused, and a SveltosCluster stays not
  ready, across a quiet segment; since a cluster created paused is dropped and
  stays paused while nothing passes, an unpaused cluster was signalled, last
  by an event that saw the same labels and an unpaused cluster;
* `machine_runs_signal_running`: a machine not `Running` stays so across a
  quiet segment, and a `Running` machine has been `Running` since the last
  event that passed;
* `watched_state_tracks_last_trigger`: the `Spec` of a report or health check,
  and the `Status.FeatureSummaries` of a summary, are deeply equal to their
  value at the last event that passed, or, for a summary that nothing has
  passed yet, at its creation;
* `merged_update_false_of_quiet`: when the informer delivers the updates of a
  quiet segment as one, from the segment's first state to its last, that update
  is dropped too; a resync, an update from a state to itself, is one.
-/

namespace HCM

/-! ## Clusters -/

/-- Along any run of a CAPI Cluster or a SveltosCluster, a segment in which no
update passes ends with the labels it started with (deeply equal), paused if
it started paused, and for a SveltosCluster not ready if it started not ready.
At every unpaused state some event so far passed, and the last one that did
saw the same labels, an unpaused cluster and, for a SveltosCluster, a cluster
at least as ready. -/
theorem cluster_runs_signal_relevant_changes :
    (∀ (c : ℕ → Cluster) (i k : ℕ), i ≤ k → ClusterPredicate.funcs.Quiet c i k →
      deepEqual (c i).labels (c k).labels = true ∧
        ((c i).spec.paused = true → (c k).spec.paused = true)) ∧
    (∀ (c : ℕ → Cluster) (k : ℕ), (c k).spec.paused = false →
      ∃ j ≤ k, ClusterPredicate.funcs.verdict c j = true ∧ ClusterPredicate.funcs.Quiet c j k ∧
        deepEqual (c j).labels (c k).labels = true ∧ (c j).spec.paused = false) ∧
    (∀ (s : ℕ → SveltosCluster) (i k : ℕ), i ≤ k → sveltosClusterPredicates.Quiet s i k →
      deepEqual (s i).labels (s k).labels = true ∧
        ((s i).spec.paused = true → (s k).spec.paused = true) ∧
          ((s i).status.ready = false → (s k).status.ready = false)) ∧
    (∀ (s : ℕ → SveltosCluster) (k : ℕ), (s k).spec.paused = false →
      ∃ j ≤ k, sveltosClusterPredicates.verdict s j = true ∧ sveltosClusterPredicates.Quiet s j k ∧
        deepEqual (s j).labels (s k).labels = true ∧ (s j).spec.paused = false ∧
          ((s k).status.ready = true → (s j).status.ready = true)) := by
  refine ⟨fun _ _ _ => ClusterPredicate.relevance.covers_of_quiet, fun c k hk => ?_,
    fun _ _ _ => sveltosClusterRelevance.covers_of_quiet, fun s k hk => ?_⟩
  · obtain ⟨j, hj, hv, hq, hl, hp⟩ := ClusterPredicate.relevance.last_trigger_covers
      (fun a => a.spec.paused = false)
      (fun a h => by simpa [ClusterPredicate.funcs, ClusterPredicate.create] using h)
      (fun h ha => by simpa using h.2 (by simpa using ha)) hk
    exact ⟨j, hj, hv, hq, hl, by simpa [hk] using hp⟩
  · obtain ⟨j, hj, hv, hq, hl, hp, hr⟩ := sveltosClusterRelevance.last_trigger_covers
      (fun a => a.spec.paused = false) (fun a h => by simpa [sveltosClusterPredicates] using h)
      (fun h ha => by simpa using h.2.1 (by simpa using ha)) hk
    exact ⟨j, hj, hv, hq, hl, by simpa [hk] using hp, fun h => by simpa [h] using hr⟩

/-- A CAPI Cluster created paused, unpaused, then given its labels in another
order: the relabelling passes nothing, and the unpausing is the last event
that passed. -/
theorem cluster_run_reordered_labels :
    let l : GoMap String := ⟨[("env", "prod"), ("tier", "web")], by decide⟩
    let l' : GoMap String := ⟨[("tier", "web"), ("env", "prod")], by decide⟩
    let c : ℕ → Cluster := fun j =>
      if j = 0 then ⟨some l, ⟨true⟩⟩ else if j = 1 then ⟨some l, ⟨false⟩⟩ else ⟨some l', ⟨false⟩⟩
    ClusterPredicate.funcs.Quiet c 1 2 ∧ (c 2).spec.paused = false ∧
      (deepEqual (c 1).labels (c 2).labels = true ∧
        ((c 1).spec.paused = true → (c 2).spec.paused = true)) ∧
      ∃ j ≤ 2, ClusterPredicate.funcs.verdict c j = true ∧ ClusterPredicate.funcs.Quiet c j 2 ∧
        deepEqual (c j).labels (c 2).labels = true ∧ (c j).spec.paused = false := by
  intro _ _ c
  exact ⟨by decide, rfl, cluster_runs_signal_relevant_changes.1 c 1 2 (by decide) (by decide),
    cluster_runs_signal_relevant_changes.2.1 c 2 rfl⟩

/-! ## Machines -/

/-- Along any run of a Machine, a quiet segment that starts with the machine not
`Running` ends with it not `Running`; and a `Running` machine has been
`Running` since the last event that passed, which exists. -/
theorem machine_runs_signal_running (m : ℕ → Machine) :
    (∀ i k, i ≤ k → MachinePredicate.funcs.Quiet m i k →
      (m i).status.getTypedPhase ≠ .running → (m k).status.getTypedPhase ≠ .running) ∧
    (∀ k, (m k).status.getTypedPhase = .running →
      ∃ j ≤ k, MachinePredicate.funcs.verdict m j = true ∧ MachinePredicate.funcs.Quiet m j k ∧
        ∀ l, j ≤ l → l ≤ k → (m l).status.getTypedPhase = .running) := by
  refine ⟨fun _ _ => MachinePredicate.relevance.covers_of_quiet, fun k hk => ?_⟩
  have htrig := MachinePredicate.relevance.triggered_of_pending
    (fun a => a.status.getTypedPhase = .running)
    (fun a h => by simpa [MachinePredicate.funcs, MachinePredicate.create] using h) id hk
  obtain ⟨j, hj, hv, hq⟩ := Funcs.exists_last_trigger htrig
  refine ⟨j, hj, hv, hq, fun l hjl hlk => ?_⟩
  by_contra hl
  exact MachinePredicate.relevance.covers_of_quiet hlk (hq.mono hjl le_rfl) hl hk

/-- A machine `Provisioned` at its first two states, then `Running`: the quiet
segment before keeps it not `Running`, and it has been `Running` since the
Update into `Running`, the last event that passed. -/
theorem machine_run_enters_running :
    let m : ℕ → Machine := fun j => ⟨⟨if j < 2 then "Provisioned" else "Running"⟩⟩
    MachinePredicate.funcs.Quiet m 0 1 ∧ (m 0).status.getTypedPhase ≠ .running ∧
      (m 1).status.getTypedPhase ≠ .running ∧
      ∃ j ≤ 4, MachinePredicate.funcs.verdict m j = true ∧ MachinePredicate.funcs.Quiet m j 4 ∧
        ∀ l, j ≤ l → l ≤ 4 → (m l).status.getTypedPhase = .running := by
  intro m
  exact ⟨by decide, by decide,
    (machine_runs_signal_running m).1 0 1 (by decide) (by decide) (by decide),
    (machine_runs_signal_running m).2 4 (by decide)⟩

/-! ## Summaries, reports and health checks -/

section OnChange

variable {α : Type} {watched : α → GoValue} {p : Funcs α}
  (hp : p.updateFunc = updateOnChange watched) (c : ℕ → α) (k : ℕ)
include hp

theorem deepEqual_of_quiet {i : ℕ} (hik : i ≤ k) (hq : p.Quiet c i k) :
    deepEqual (watched (c i)) (watched (c k)) = true :=
  (Relevance.onChange hp).covers_of_quiet hik hq

/-- The watched sub-structure is deeply equal to its value at the last event that
passed, if one did, else to its value at creation. -/
theorem last_trigger_or_created :
    (∃ j ≤ k, p.verdict c j = true ∧ p.Quiet c j k ∧
      deepEqual (watched (c j)) (watched (c k)) = true) ∨
    ((∀ j ≤ k, p.verdict c j = false) ∧ deepEqual (watched (c 0)) (watched (c k)) = true) := by
  by_cases h : ∃ j ≤ k, p.verdict c j = true
  · obtain ⟨j, hj, hv, hq⟩ := Funcs.exists_last_trigger h
    exact .inl ⟨j, hj, hv, hq, deepEqual_of_quiet hp c k hj hq⟩
  · simp only [not_exists, not_and, Bool.not_eq_true] at h
    exact .inr ⟨h, deepEqual_of_quiet hp c k (Nat.zero_le k) fun j _ hj => h j hj⟩

end OnChange

/-- Along any run of a ClusterSummary, HealthCheckReport or HealthCheck, a
segment in which no update passes ends with the watched sub-structure
(`Status.FeatureSummaries`, `Spec`) deeply equal to the one it started with. A
report's or health check's Create always passes, so at every state the
sub-structure is deeply equal to its value at the last event that passed; a
summary's Create never passes, and its sub-structure is either deeply equal to
its value at the last event that passed or, when none did, to its value at
creation. -/
theorem watched_state_tracks_last_trigger :
    (∀ (s : ℕ → ClusterSummary) (i k : ℕ), i ≤ k → clusterSummaryPredicates.Quiet s i k →
      deepEqual (s i).status.featureSummaries (s k).status.featureSummaries = true) ∧
    (∀ (r : ℕ → HealthCheckReport) (i k : ℕ), i ≤ k → healthCheckReportPredicates.Quiet r i k →
      deepEqual (r i).spec (r k).spec = true) ∧
    (∀ (h : ℕ → HealthCheck) (i k : ℕ), i ≤ k → healthCheckPredicates.Quiet h i k →
      deepEqual (h i).spec (h k).spec = true) ∧
    (∀ e, healthCheckReportPredicates.createFunc e = true) ∧
    (∀ e, healthCheckPredicates.createFunc e = true) ∧
    (∀ e, clusterSummaryPredicates.createFunc e = false) ∧
    (∀ (r : ℕ → HealthCheckReport) (k : ℕ), ∃ j ≤ k,
      healthCheckReportPredicates.verdict r j = true ∧ healthCheckReportPredicates.Quiet r j k ∧
        deepEqual (r j).spec (r k).spec = true) ∧
    (∀ (h : ℕ → HealthCheck) (k : ℕ), ∃ j ≤ k,
      healthCheckPredicates.verdict h j = true ∧ healthCheckPredicates.Quiet h j k ∧
        deepEqual (h j).spec (h k).spec = true) ∧
    (∀ (s : ℕ → ClusterSummary) (k : ℕ),
      (∃ j ≤ k, clusterSummaryPredicates.verdict s j = true ∧ clusterSummaryPredicates.Quiet s j k ∧
        deepEqual (s j).status.featureSummaries (s k).status.featureSummaries = true) ∨
      ((∀ j ≤ k, clusterSummaryPredicates.verdict s j = false) ∧
        deepEqual (s 0).status.featureSummaries (s k).status.featureSummaries = true)) := by
  refine ⟨fun s _ k => deepEqual_of_quiet clusterSummaryPredicates_updateFunc s k,
    fun r _ k => deepEqual_of_quiet healthCheckReportPredicates_updateFunc r k,
    fun h _ k => deepEqual_of_quiet healthCheckPredicates_updateFunc h k,
    fun _ => rfl, fun _ => rfl, fun _ => rfl, fun r k => ?_, fun h k => ?_,
    fun s k => last_trigger_or_created clusterSummaryPredicates_updateFunc s k⟩
  · refine (last_trigger_or_created healthCheckReportPredicates_updateFunc r k).resolve_right
      fun ⟨h, _⟩ => ?_
    simpa [healthCheckReportPredicates] using h 0 (Nat.zero_le k)
  · refine (last_trigger_or_created healthCheckPredicates_updateFunc h k).resolve_right
      fun ⟨h, _⟩ => ?_
    simpa [healthCheckPredicates] using h 0 (Nat.zero_le k)

/-- A HealthCheck whose `Spec` gets the entries of a nested map in another
order: the Update passes nothing, and the `Spec` is deeply equal to the one at
creation, the last event that passed. -/
theorem healthCheck_run_reordered_spec :
    let v : GoValue := ⟨.struct [.map (some [("a", .scalar (.int 1)), ("b", .slice none)])],
      ⟨⟨by decide, trivial, trivial, trivial⟩, trivial⟩⟩
    let v' : GoValue := ⟨.struct [.map (some [("b", .slice none), ("a", .scalar (.int 1))])],
      ⟨⟨by decide, trivial, trivial, trivial⟩, trivial⟩⟩
    let h : ℕ → HealthCheck := fun j => if j = 0 then ⟨v⟩ else ⟨v'⟩
    healthCheckPredicates.Quiet h 0 3 ∧ deepEqual (h 0).spec (h 3).spec = true ∧
      ∃ j ≤ 3, healthCheckPredicates.verdict h j = true ∧ healthCheckPredicates.Quiet h j 3 ∧
        deepEqual (h j).spec (h 3).spec = true := by
  intro _ _ h
  exact ⟨by decide, watched_state_tracks_last_trigger.2.2.1 h 0 3 (by decide) (by decide),
    watched_state_tracks_last_trigger.2.2.2.2.2.2.2.1 h 3⟩

/-! ## Merged updates -/

/-- Along any run of a watched object, the update from the first state of a
segment in which no update passes to its last state is dropped too, by every
Update predicate: an informer that skips the states in between (after a relist)
or resends a state as an update of itself (a resync, `i = k`) triggers nothing
the updates one by one would not have. -/
theorem merged_update_false_of_quiet :
    (∀ (c : ℕ → Cluster) (i k : ℕ), i ≤ k → ClusterPredicate.funcs.Quiet c i k →
      ClusterPredicate.update ⟨some (c i), c k⟩ = false) ∧
    (∀ (s : ℕ → SveltosCluster) (i k : ℕ), i ≤ k → sveltosClusterPredicates.Quiet s i k →
      sveltosClusterPredicates.updateFunc ⟨some (s i), s k⟩ = false) ∧
    (∀ (m : ℕ → Machine) (i k : ℕ), i ≤ k → MachinePredicate.funcs.Quiet m i k →
      MachinePredicate.update ⟨some (m i), m k⟩ = false) ∧
    (∀ (s : ℕ → ClusterSummary) (i k : ℕ), i ≤ k → clusterSummaryPredicates.Quiet s i k →
      clusterSummaryPredicates.updateFunc ⟨some (s i), s k⟩ = false) ∧
    (∀ (r : ℕ → HealthCheckReport) (i k : ℕ), i ≤ k → healthCheckReportPredicates.Quiet r i k →
      healthCheckReportPredicates.updateFunc ⟨some (r i), r k⟩ = false) ∧
    (∀ (h : ℕ → HealthCheck) (i k : ℕ), i ≤ k → healthCheckPredicates.Quiet h i k →
      healthCheckPredicates.updateFunc ⟨some (h i), h k⟩ = false) :=
  ⟨fun _ _ _ => ClusterPredicate.relevance.update_false_of_quiet ClusterPredicate.relevance_exact,
    fun _ _ _ => sveltosClusterRelevance.update_false_of_quiet sveltosClusterRelevance_exact,
    fun _ _ _ => MachinePredicate.relevance.update_false_of_quiet MachinePredicate.relevance_exact,
    fun _ _ _ => (Relevance.onChange clusterSummaryPredicates_updateFunc).update_false_of_quiet
      (Relevance.onChange_exact _),
    fun _ _ _ => (Relevance.onChange healthCheckReportPredicates_updateFunc).update_false_of_quiet
      (Relevance.onChange_exact _),
    fun _ _ _ => (Relevance.onChange healthCheckPredicates_updateFunc).update_false_of_quiet
      (Relevance.onChange_exact _)⟩

/-- A cluster given its labels in another order, then paused: neither update
passes, and neither does the one update from the first state to the last. -/
theorem cluster_merged_relabel_and_pause :
    let l : GoMap String := ⟨[("env", "prod"), ("tier", "web")], by decide⟩
    let l' : GoMap String := ⟨[("tier", "web"), ("env", "prod")], by decide⟩
    let c : ℕ → Cluster := fun j =>
      if j = 0 then ⟨some l, ⟨false⟩⟩ else if j = 1 then ⟨some l', ⟨false⟩⟩ else ⟨some l', ⟨true⟩⟩
    ClusterPredicate.funcs.Quiet c 0 2 ∧ ClusterPredicate.update ⟨some (c 0), c 2⟩ = false := by
  intro _ _ c
  exact ⟨by decide, merged_update_false_of_quiet.1 c 0 2 (by decide) (by decide)⟩

end HCM
