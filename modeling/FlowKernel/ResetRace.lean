import FlowKernel.Meters

/-!
# Resetting the statistics while the reactor runs

`reset_stats()` runs on the UI thread and stores the baselines that `handle_events`
reads and writes without synchronisation. Drop counters stay below what was
dropped in every run in which no such store falls between the reactor's reading of
a counter and its use with a newer value, or brings back an older one than what
has been published. Otherwise they do not: a difference can turn negative.
-/

namespace FlowKernel.Reactor

open Foundation

universe u
variable {κ : Type u} {config : Config κ} {s : State κ}

/-- The drop counters do not exceed what was dropped, and no difference with a
baseline is about to wrap. -/
structure DropsBounded (s : State κ) : Prop where
  queue : s.stats.critical_dropped.toNat + s.stats.normal_dropped.toNat ≤
    (rejectedFrames s.log).length
  background : s.stats.background_dropped.toNat ≤ (replacements s.log).length
  queueDifference : ∀ current, s.reactor = .readLast current →
    s.stats.last_queue_dropped ≤ current
  backgroundDifference : ∀ current, s.reactor = .readLastBg current →
    s.stats.last_bg_dropped ≤ current

/-- In every interleaving of the reactor, the data callbacks and `reset_stats()` in
which every baseline that the latter stores is safe and nothing that is counted
reaches 2^64, at every moment. -/
theorem drops_bounded (reached : (machine config).ReachableWithin (Accountable config) s) :
    DropsBounded s := by
  have metered := reachable_metered reached
  have counted := reachable_counted reached.reachable
  have rejected : s.dropped.toNat ≤ (rejectedFrames s.log).length := by
    rw [counted.dropped, BitVec.toNat_ofNat]
    exact Nat.mod_le _ _
  exact
    { queue := Nat.le_trans metered.queue.published_le rejected
      background := Nat.le_trans metered.background.published_le counted.drops
      queueDifference := metered.queue_difference
      backgroundDifference := metered.background_difference }

section Runs

/-- A key press that resets the statistics, without interruption of the UI thread. -/
def resetTurns : List Action :=
  .beginReset :: List.replicate 13 (.resetStep [fnv1a_hash costmapPath])

/-- Two frames for one slot. -/
def costmapTwice : List Action :=
  [.receive 0 2 0 costmapPath emptyMessage 0, .receive 0 2 1 costmapPath emptyMessage 0]

/-- The reactor has summed the overwrites of its first cycle and is about to read the
baseline. Two costmaps arrive, the second overwriting the first, and the statistics
are reset. -/
def racyRun : List Action :=
  defaultTurns 26 ++ costmapTwice ++ resetTurns ++ defaultTurns 3

/-- A reading that is stored late lets the difference wrap. -/
theorem racyRun_wraps :
    ¬ ∀ s, (machine defaultConfig).Reachable s → DropsBounded s := by
  intro bounded
  have outcome : ((machine defaultConfig).exec (init TopicPriority) racyRun).map (fun s =>
      (s.stats.background_dropped.toNat, (replacements s.log).length)) =
        some (2 ^ 64 - 1, 1) := by decide +kernel
  obtain ⟨s, ran, seen⟩ := Option.map_eq_some_iff.mp outcome
  simp only [Prod.mk.injEq] at seen
  have claimed := (bounded s (Machine.reachable_of_exec ran)).background
  rw [seen.1, seen.2] at claimed
  exact absurd claimed (by decide)

/-- The same key press while the reactor is between its two synchronisations. -/
def safeRun : List Action :=
  defaultTurns 14 ++ costmapTwice ++ resetTurns ++ costmapTwice ++ defaultTurns 20

/-- A reset between the cycles counts what is dropped behind it. -/
theorem safeRun_bounded :
    ∃ s, (machine defaultConfig).execWithin (accountable defaultConfig) (init TopicPriority)
        safeRun = some s ∧
      s.stats.background_dropped.toNat = 2 ∧ (replacements s.log).length = 3 ∧
        DropsBounded s := by
  have outcome : ((machine defaultConfig).execWithin (accountable defaultConfig)
      (init TopicPriority) safeRun).map (fun s =>
        (s.stats.background_dropped.toNat, (replacements s.log).length)) = some (2, 3) := by
    decide +kernel
  obtain ⟨s, ran, seen⟩ := Option.map_eq_some_iff.mp outcome
  simp only [Prod.mk.injEq] at seen
  have reached := Machine.ReachableWithin.exec (fun _ _ _ => accountable_of_check) .start ran
  exact ⟨s, ran, seen.1, seen.2, drops_bounded reached⟩

end Runs

end FlowKernel.Reactor
