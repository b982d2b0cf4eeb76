import FlowKernel.Foundation.DeltaMeter
import FlowKernel.Ledger

/-!
# The drop counters as meters

`handle_events` publishes the growth of `dropped_` through `critical_dropped_` and
`normal_dropped_`, and the growth of the slots' drop counts through
`background_dropped_`. Both are meters of the library, read off the 64-bit
counters of the code. Every access of the reactor is a step of each meter as long
as nothing that is counted reaches 2^64; the accesses of `reset_stats()` are
interference.
-/

namespace FlowKernel.Reactor

open Foundation

universe u
variable {κ : Type u}

/-- Where the reactor is in publishing new rejections. -/
def ReactorPc.queuePhase : ReactorPc → MeterPhase
  | .readLast current => .seen current.toNat
  | .storeLast current new => .subtracted current.toNat new.toNat
  | .readCriticalLast new | .readNormalLast new _ | .split new _ | .addCriticalDropped new _
  | .addAllDropped new => .publishing new.toNat
  | .addNormalDropped new c_drop => .publishing (new - c_drop).toNat
  | _ => .publishing 0

/-- Where the reactor is in publishing new overwrites. A sum under way will come to
what it has added up and what the slots still ahead of it hold. -/
def ReactorPc.backgroundPhase (cache : LatestSampleCache Frame) : ReactorPc → MeterPhase
  | .sumSlots todo total => .seen (total.toNat + cache.drops todo)
  | .readLastBg current => .seen current.toNat
  | .storeLastBg current new => .subtracted current.toNat new.toNat
  | .addBackgroundDropped new => .publishing new.toNat
  | _ => .publishing 0

/-- The meter of the queue: its counter, and the reading that was kept. -/
def State.queueMeter (config : Config κ) (s : State κ) : DeltaMeter where
  source := s.dropped.toNat
  since := (ledger config s.log).rejected
  baseline := s.stats.last_queue_dropped.toNat
  published := s.stats.critical_dropped.toNat + s.stats.normal_dropped.toNat
  phase := s.reactor.queuePhase

/-- The meter of the slots: their sum, and the reading that was kept. -/
def State.backgroundMeter (config : Config κ) (s : State κ) : DeltaMeter where
  source := s.background_cache.drops s.background_cache.keys
  since := (ledger config s.log).overwritten
  baseline := s.stats.last_bg_dropped.toNat
  published := s.stats.background_dropped.toNat
  phase := s.reactor.backgroundPhase s.background_cache

/-- What is counted stays below 2^64: rejections and overwrites ever made, and the
frames of one cycle. -/
structure Fits (s : State κ) : Prop where
  rejected : (rejectedFrames s.log).length < 2 ^ 64
  overwritten : (replacements s.log).length < 2 ^ 64
  processed : s.stats.critical_count_last.toNat + s.stats.normal_count_last.toNat < 2 ^ 64

/-- The locals of the proportional split are in proportion, and a sum visits every
slot once. -/
def Proportioned (s : State κ) : Prop :=
  match s.reactor with
  | .readNormalLast _ critical =>
      s.stats.critical_count_last ≤ critical ∧
        critical.toNat + s.stats.normal_count_last.toNat < 2 ^ 64
  | .split _ total => s.stats.critical_count_last ≤ total ∧ 0 < total
  | .addCriticalDropped new c_drop | .addNormalDropped new c_drop => c_drop ≤ new
  | .sumSlots todo _ => todo.Nodup
  | _ => True

/-- What `reset_stats()` has read does not exceed what there is to read. -/
def Loaded (s : State κ) : Prop :=
  match s.resetting with
  | .storeLast current => current.toNat ≤ s.dropped.toNat
  | .sumSlots todo total => todo.Nodup ∧ total.toNat + s.background_cache.drops todo ≤
      s.background_cache.drops s.background_cache.keys
  | _ => True

/-- Events that record a loss or start the ledger anew. -/
def Event.loses : Event κ → Bool
  | .offered _ _ false | .slot _ (.overwrite _ _) | .reset _ _ => true
  | _ => false

variable {config : Config κ} {s next : State κ}

/-- Other events leave the losses where they are. -/
theorem ledger_losses {log events : List (Event κ)}
    (other : ∀ event ∈ events, event.loses = false) :
    (ledger config (log ++ events)).rejected = (ledger config log).rejected ∧
      (ledger config (log ++ events)).overwritten = (ledger config log).overwritten := by
  rw [← Prod.mk.injEq]
  apply ledger_kept fun book : Ledger => (book.rejected, book.overwritten)
  intro event member book
  have kept := other event member
  cases event with
  | offered priority sample pushed =>
    cases pushed with
    | true => rfl
    | false => simp [Event.loses] at kept
  | slot hash operation =>
    cases operation with
    | overwrite old fresh => simp [Event.loses] at kept
    | _ => rfl
  | reset => simp [Event.loses] at kept
  | dispatched call =>
    simp only [Ledger.add]
    split_ifs <;> rfl
  | _ => rfl

/-- A step of each meter, with what the next step relies on. -/
structure MeterSteps (config : Config κ) (s next : State κ) : Prop where
  queue : DeltaMeter.Step (s.queueMeter config) (next.queueMeter config)
  background : DeltaMeter.Step (s.backgroundMeter config) (next.backgroundMeter config)
  proportioned : Proportioned next
  loaded : Loaded next

/-- A step that moves neither meter. -/
theorem MeterSteps.rest (queue : next.queueMeter config = s.queueMeter config)
    (background : next.backgroundMeter config = s.backgroundMeter config)
    (proportioned : Proportioned next) (loaded : Loaded next) : MeterSteps config s next where
  queue := by
    rw [queue]
    exact .rest
  background := by
    rw [background]
    exact .rest
  proportioned := proportioned
  loaded := loaded

/-- Steps that only log, and perhaps take a sample, leave the meters where they are. -/
theorem MeterSteps.noted {events : List (Event κ)} (log : next.log = s.log ++ events)
    (other : ∀ event ∈ events, event.loses = false) (dropped : next.dropped = s.dropped)
    (cache : ∀ hashes, next.background_cache.drops hashes = s.background_cache.drops hashes)
    (keys : next.background_cache.keys = s.background_cache.keys) (stats : next.stats = s.stats)
    (queuePhase : next.reactor.queuePhase = s.reactor.queuePhase)
    (backgroundPhase : next.reactor.backgroundPhase next.background_cache =
      s.reactor.backgroundPhase s.background_cache)
    (proportioned : Proportioned next) (loaded : Loaded next) : MeterSteps config s next := by
  have losses := @ledger_losses _ config s.log events other
  refine .rest ?_ ?_ proportioned loaded
  · simp only [State.queueMeter, dropped, stats, queuePhase, log, losses.1]
  · simp only [State.backgroundMeter, cache, keys, stats, backgroundPhase, log, losses.2]

/-- What a reset has read stays within what there is to read, when that grows. -/
theorem Loaded.grow (loaded : Loaded s) (resetting : next.resetting = s.resetting)
    (dropped : s.dropped.toNat ≤ next.dropped.toNat)
    (drops : ∀ hashes : List U64, hashes.Nodup →
      next.background_cache.drops hashes +
          s.background_cache.drops s.background_cache.keys ≤
        s.background_cache.drops hashes +
          next.background_cache.drops next.background_cache.keys) : Loaded next := by
  unfold Loaded at loaded ⊢
  rw [resetting]
  split at loaded
  · exact Nat.le_trans loaded dropped
  next todo total _ =>
    refine ⟨loaded.1, ?_⟩
    have moved := drops todo loaded.1
    have within := loaded.2
    omega
  · trivial

/-- The counters of the code hold what the log says. -/
structure Counted (s : State κ) : Prop where
  dropped : s.dropped = BitVec.ofNat 64 (rejectedFrames s.log).length
  drops : s.background_cache.drops s.background_cache.keys ≤ (replacements s.log).length
  absent : ∀ hash, hash ∉ s.background_cache.keys → s.background_cache.slots hash = .empty

/-- In every run the dropped counters are those of the history. -/
theorem reachable_counted (reached : (machine config).Reachable s) : Counted s where
  dropped := (reachable_carried reached).1.queue.counted
  drops := (reachable_tallied reached).drops
  absent := (reachable_tallied reached).absent

/-- A sum over the slots at rest is exact. -/
theorem total_dropped (counted : Counted s) (fits : Fits s) {order : List U64}
    (listed : order.Perm s.background_cache.keys) :
    (s.background_cache.get_total_dropped order).toNat =
      s.background_cache.drops s.background_cache.keys := by
  have same := s.background_cache.drops_perm listed
  have drops := counted.drops
  have bounded := fits.overwritten
  rw [LatestSampleCache.toNat_get_total_dropped (by omega), same]

/-- The meters, sound, with the facts about locals that keep them so. -/
structure Metered (config : Config κ) (s : State κ) : Prop where
  fits : Fits s
  queue : (s.queueMeter config).Sound
  background : (s.backgroundMeter config).Sound
  proportioned : Proportioned s
  loaded : Loaded s

/-- The subtraction that yields the new rejections does not wrap. -/
theorem Metered.queue_difference (metered : Metered config s) (current : U64)
    (here : s.reactor = .readLast current) : s.stats.last_queue_dropped ≤ current := by
  have sound := metered.queue
  simp only [DeltaMeter.Sound, State.queueMeter, here, ReactorPc.queuePhase] at sound
  exact BitVec.le_def.mpr sound.2.1

/-- Nor does the one that yields the new overwrites. -/
theorem Metered.background_difference (metered : Metered config s) (current : U64)
    (here : s.reactor = .readLastBg current) : s.stats.last_bg_dropped ≤ current := by
  have sound := metered.background
  simp only [DeltaMeter.Sound, State.backgroundMeter, here, ReactorPc.backgroundPhase] at sound
  exact BitVec.le_def.mpr sound.2.1

section Receiving

variable {thread : Nat} {ctx : CallbackContext} {frame : Frame} {now : TimePoint}

/-- A rejection moves the queue's meter, an overwrite the other. A sum under way
sees an overwrite in a slot still ahead of it, and no other. -/
theorem receive_meters (counted : Counted s) (proportioned : Proportioned s)
    (loaded : Loaded s) (outcome : Callback config s thread ctx frame now next) (fits : Fits next) :
    MeterSteps config s next := by
  cases outcome with
  | ignored => exact .rest rfl rfl proportioned loaded
  | accepted | unslotted =>
    exact .noted rfl (by simp [Event.loses]) rfl (fun _ => rfl) rfl rfl rfl rfl proportioned loaded
  | rejected queued full =>
    have room : (rejectedFrames s.log).length + 1 < 2 ^ 64 := by
      simpa [rejectedFrames] using fits.rejected
    have one : (1 : U64).toNat = 1 := rfl
    have grown : (s.dropped + 1).toNat = s.dropped.toNat + 1 := by
      rw [counted.dropped, BitVec.toNat_add, BitVec.toNat_ofNat, one]
      omega
    refine ⟨?_, ?_, proportioned, loaded.grow rfl (by simp only [grown]; omega) (by simp)⟩
    · simp only [State.queueMeter, ledger_append, List.foldl_cons, List.foldl_nil, Ledger.add,
        grown]
      exact .grow
    · simp only [State.backgroundMeter, ledger_append, List.foldl_cons, List.foldl_nil, Ledger.add]
      exact .rest
  | put cached present =>
    cases held : (s.background_cache.slots ctx.handler_hash).held with
    | none =>
      have kept := s.background_cache.drops_put_empty ctx.handler_hash ctx.handler_hash frame now
        held
      refine .noted rfl ?_ rfl kept rfl rfl rfl ?_ proportioned ?_
      · simp [LatestSampleSlot.putEvent, held, Event.loses]
      · simp only [ReactorPc.backgroundPhase, kept]
      · exact loaded.grow rfl (Nat.le_refl _) (by simp [kept])
    | some old =>
      have room : (s.background_cache.slots ctx.handler_hash).drop_count.toNat + 1 < 2 ^ 64 := by
        have within := s.background_cache.drop_count_le_drops ctx.handler_hash present
        have drops := counted.drops
        have overwritten := fits.overwritten
        simp only [replacements_append, List.length_append] at overwritten
        simp only [replacements, LatestSampleSlot.putEvent, held, List.filterMap_cons,
          List.filterMap_nil, List.length_singleton] at overwritten drops
        omega
      have grown := fun hashes : List U64 => @LatestSampleCache.drops_put_full _ s.background_cache
        ctx.handler_hash ctx.handler_hash frame now (by simp [held]) room hashes
      have whole := grown _ s.background_cache.distinct
      rw [if_pos present] at whole
      refine ⟨?_, ?_, proportioned, loaded.grow rfl (Nat.le_refl _) ?_⟩
      · simp only [State.queueMeter, ledger_append, List.foldl_cons, List.foldl_nil, Ledger.add,
          LatestSampleSlot.putEvent, held]
        exact .rest
      · simp only [State.backgroundMeter, ledger_append, List.foldl_cons, List.foldl_nil,
          Ledger.add, LatestSampleSlot.putEvent, held, LatestSampleCache.keys_setSlot, whole]
        cases here : s.reactor with
        | sumSlots todo total =>
          simp only [Proportioned, here] at proportioned
          simp only [ReactorPc.backgroundPhase, grown todo proportioned]
          by_cases ahead : ctx.handler_hash ∈ todo
          · simp only [if_pos ahead, ← Nat.add_assoc]
            exact .growAhead rfl
          · simp only [if_neg ahead, Nat.add_zero]
            exact .grow
        | _ => exact .grow
      · intro hashes distinct
        rw [grown hashes distinct, LatestSampleCache.keys_setSlot, whole]
        split
        · omega
        · omega

end Receiving

section Publishing

/-- A portion of the growth is published exactly: the counter cannot overflow below
a sound baseline. -/
theorem published_portion {counter amount baseline : U64} {others rest : Nat}
    (sound : counter.toNat + others + (amount.toNat + rest) ≤ baseline.toNat) :
    (counter + amount).toNat = counter.toNat + amount.toNat := by
  have bounded := baseline.isLt
  exact BitVec.toNat_add_of_lt (by omega)

/-- The share of the CRITICAL frames is no more than the whole, also where the
multiplication wraps. -/
theorem share_le {new part total : U64} (within : part ≤ total) (positive : 0 < total) :
    new * part / total ≤ new := by
  have smaller : part.toNat ≤ total.toNat := BitVec.le_def.mp within
  have divisor : 0 < total.toNat := BitVec.lt_def.mp positive
  rw [BitVec.le_def, BitVec.toNat_udiv, BitVec.toNat_mul]
  calc new.toNat * part.toNat % 2 ^ 64 / total.toNat
      ≤ new.toNat * part.toNat / total.toNat := Nat.div_le_div_right (Nat.mod_le _ _)
    _ ≤ new.toNat * total.toNat / total.toNat :=
      Nat.div_le_div_right (Nat.mul_le_mul_left _ smaller)
    _ = new.toNat := Nat.mul_div_cancel _ divisor

/-- The accesses of `handle_events` to the counters are those of the meters. -/
theorem access_meters (counted : Counted s) (metered : Metered config s) {answers : Answers}
    (access : Access config s answers s.reactor next) : MeterSteps config s next := by
  have queueSound := metered.queue
  have backgroundSound := metered.background
  have proportioned := metered.proportioned
  have loaded := metered.loaded
  have fits := metered.fits
  clear metered
  obtain ⟨running, started, contexts, queue, dropped, cache, stats, latencies, sessions, wakeup,
    callbacks, stops, resetting, reactor, log⟩ := s
  cases access with
  | @allocate i handler next cached =>
    have kept := LatestSampleCache.drops_pre_allocate (counted.absent handler.path_hash)
    refine .rest rfl ?_ trivial (loaded.grow rfl (Nat.le_refl _) ?_)
    · simp only [State.backgroundMeter, kept]
      rfl
    · intro hashes _
      rw [kept]
      simp [LatestSampleCache.drops]
  | armFirst | arm | enter | emptied | pop | unindexed | dispatchCritical | dispatchNormal
  | startDrain | drained | unindexedSlot | dispatchSlot =>
    exact .noted rfl (by simp [Event.loses]) rfl (fun _ => rfl) rfl rfl rfl rfl trivial loaded
  | loadDropped => exact ⟨.look rfl, .rest, trivial, loaded⟩
  | readLast =>
    refine ⟨?_, .rest, trivial, loaded⟩
    have behind := BitVec.le_def.mpr queueSound.2.1
    simp only [State.queueMeter, ReactorPc.queuePhase, BitVec.toNat_sub_of_le behind]
    exact .subtract rfl
  | storeGrown => exact ⟨.commit rfl, .rest, trivial, loaded⟩
  | @storeSame current new same =>
    have zero : new.toNat = 0 := by
      simpa using BitVec.lt_def.not.mp same
    refine ⟨?_, .rest, trivial, loaded⟩
    simp only [State.queueMeter, ReactorPc.queuePhase, zero]
    exact .commit rfl
  | readCriticalLast => exact .rest rfl rfl ⟨BitVec.le_refl _, fits.processed⟩ loaded
  | @divide new critical charged =>
    obtain ⟨known, small⟩ := proportioned
    have sum : (critical + stats.normal_count_last).toNat = _ := BitVec.toNat_add_of_lt small
    refine .rest rfl rfl ⟨BitVec.le_trans known (BitVec.le_def.mpr ?_), charged⟩ loaded
    rw [sum]
    exact Nat.le_add_right _ _
  | split =>
    obtain ⟨within, positive⟩ := proportioned
    exact .rest rfl rfl (share_le within positive) loaded
  | @addCriticalDropped new c_drop =>
    have share : c_drop ≤ new := proportioned
    have parts : new.toNat = c_drop.toNat + (new.toNat - c_drop.toNat) := by
      have smaller := BitVec.le_def.mp share
      omega
    have portion : (stats.critical_dropped + c_drop).toNat = _ :=
      published_portion (parts ▸ queueSound.1)
    refine ⟨?_, .rest, share, loaded⟩
    simp only [State.queueMeter, ReactorPc.queuePhase, portion, BitVec.toNat_sub_of_le share,
      Nat.add_right_comm _ c_drop.toNat]
    exact .publish (congrArg MeterPhase.publishing parts)
  | @addNormalDropped new c_drop =>
    have sound : stats.normal_dropped.toNat + stats.critical_dropped.toNat +
        ((new - c_drop).toNat + 0) ≤ stats.last_queue_dropped.toNat := by
      have charged := queueSound.1
      simp only [State.queueMeter] at charged
      omega
    have portion := published_portion sound
    refine ⟨?_, .rest, trivial, loaded⟩
    simp only [State.queueMeter, ReactorPc.queuePhase, portion, ← Nat.add_assoc]
    exact .publish rfl
  | @addAllDropped new =>
    have sound : stats.critical_dropped.toNat + stats.normal_dropped.toNat + (new.toNat + 0) ≤
        stats.last_queue_dropped.toNat := queueSound.1
    have portion := published_portion sound
    refine ⟨?_, .rest, trivial, loaded⟩
    simp only [State.queueMeter, ReactorPc.queuePhase, portion, Nat.add_right_comm _ new.toNat]
    exact .publish rfl
  | @visitEmpty hash | @visit hash =>
    have quiet : ∀ event ∈ ([.slot hash (cache.slots hash).takeEvent] : List (Event κ)),
        event.loses = false := by
      cases held : (cache.slots hash).held <;>
        simp [LatestSampleSlot.takeEvent, held, Event.loses]
    have kept := cache.drops_take hash
    refine .noted rfl quiet rfl kept rfl rfl rfl rfl trivial (loaded.grow rfl (Nat.le_refl _) ?_)
    simp [State.record, State.setSlot, kept]
  | startSum listed =>
    have zero : (0 : U64).toNat = 0 := rfl
    refine ⟨.rest, ?_, listed.nodup_iff.mpr cache.distinct, loaded⟩
    simp only [State.backgroundMeter, ReactorPc.backgroundPhase, zero, Nat.zero_add,
      cache.drops_perm listed]
    exact .look rfl
  | @sumSlot hash todo total =>
    have ahead : total.toNat + ((cache.slots hash).drop_count.toNat + cache.drops todo) ≤
        cache.drops cache.keys := backgroundSound.2.2
    have known : cache.drops cache.keys ≤ (replacements log).length := counted.drops
    have bounded : (replacements log).length < 2 ^ 64 := fits.overwritten
    have sum : (total + (cache.slots hash).drop_count).toNat =
        total.toNat + (cache.slots hash).drop_count.toNat :=
      BitVec.toNat_add_of_lt (by omega)
    refine .rest rfl ?_ (List.nodup_cons.mp proportioned).2 loaded
    simp only [State.backgroundMeter, ReactorPc.backgroundPhase, sum, Nat.add_assoc]
    rfl
  | readLastBg =>
    refine ⟨.rest, ?_, trivial, loaded⟩
    have behind := BitVec.le_def.mpr backgroundSound.2.1
    simp only [State.backgroundMeter, ReactorPc.backgroundPhase, BitVec.toNat_sub_of_le behind]
    exact .subtract rfl
  | storeLastBg => exact ⟨.rest, .commit rfl, trivial, loaded⟩
  | @addBackgroundDropped new =>
    have sound : stats.background_dropped.toNat + 0 + (new.toNat + 0) ≤
        stats.last_bg_dropped.toNat := backgroundSound.1
    have portion := published_portion sound
    refine ⟨.rest, ?_, trivial, loaded⟩
    simp only [State.backgroundMeter, ReactorPc.backgroundPhase, portion]
    exact .publish rfl
  | _ => exact .rest rfl rfl trivial loaded

end Publishing

section Resetting

/-- A reset may store a baseline only over a reading that the baseline does not
exceed, and only one that covers what has been published or is about to be. -/
def ResetPc.Safe (config : Config κ) (s : State κ) : ResetPc → Prop
  | .storeLast current => (s.queueMeter config).Accepts current.toNat
  | .sumSlots [] total => (s.backgroundMeter config).Accepts total.toNat
  | _ => True

/-- If the step is one of `reset_stats`, the store that it makes is safe. -/
def SafeStore (config : Config κ) (s : State κ) : Action → Prop
  | .resetStep _ => s.resetting.Safe config s
  | _ => True

/-- Lowering the counts of the last cycle keeps the split in proportion. -/
theorem Proportioned.lower (proportioned : Proportioned s) (reactor : next.reactor = s.reactor)
    (critical : next.stats.critical_count_last ≤ s.stats.critical_count_last)
    (normal : next.stats.normal_count_last ≤ s.stats.normal_count_last) : Proportioned next := by
  unfold Proportioned at proportioned ⊢
  rw [reactor]
  split at proportioned
  · have smaller := BitVec.le_def.mp normal
    exact ⟨BitVec.le_trans critical proportioned.1, by omega⟩
  · exact ⟨BitVec.le_trans critical proportioned.1, proportioned.2⟩
  · exact proportioned
  · exact proportioned
  · exact proportioned
  · trivial

/-- A safe step of `reset_stats` keeps the meters. -/
theorem resetStep_metered (counted : Counted s) (metered : Metered config s) {order : List U64}
    (safe : SafeStore config s (.resetStep order)) (fits : Fits next)
    (stepped : resetStep s order = some next) : Metered config next := by
  obtain ⟨fitted, queue, background, proportioned, loaded⟩ := metered
  obtain ⟨running, started, contexts, critical_queue, dropped, cache, stats, latencies, sessions,
    wakeup, callbacks, stops, resetting, reactor, log⟩ := s
  cases resetting with
  | idle => simp [resetStep] at stepped
  | criticalDropped =>
    obtain rfl := Option.some.inj stepped
    refine ⟨fits, ?_, background, proportioned, trivial⟩
    exact DeltaMeter.sound_interference queue (.withdraw (by simp [State.queueMeter]))
  | normalDropped =>
    obtain rfl := Option.some.inj stepped
    refine ⟨fits, ?_, background, proportioned, trivial⟩
    exact DeltaMeter.sound_interference queue (.withdraw (by simp [State.queueMeter]))
  | backgroundDropped =>
    obtain rfl := Option.some.inj stepped
    refine ⟨fits, queue, ?_, proportioned, trivial⟩
    exact DeltaMeter.sound_interference background (.withdraw (by simp [State.backgroundMeter]))
  | loadDropped =>
    obtain rfl := Option.some.inj stepped
    exact ⟨fits, queue, background, proportioned, Nat.le_refl _⟩
  | storeLast current =>
    simp only [resetStep] at stepped
    split at stepped
    next listed =>
      obtain rfl := Option.some.inj stepped
      refine ⟨fits, ?_, background, proportioned, ?_⟩
      · exact DeltaMeter.sound_interference queue (.rebase loaded safe)
      · refine ⟨listed.nodup_iff.mpr cache.distinct, ?_⟩
        rw [cache.drops_perm listed]
        simp
    next => simp at stepped
  | sumSlots todo total =>
    cases todo with
    | nil =>
      obtain rfl := Option.some.inj stepped
      refine ⟨fits, queue, ?_, proportioned, trivial⟩
      have behind : total.toNat ≤ cache.drops cache.keys := loaded.2
      exact DeltaMeter.sound_interference background (.rebase behind safe)
    | cons hash todo =>
      obtain rfl := Option.some.inj stepped
      refine ⟨fits, queue, background, proportioned, (List.nodup_cons.mp loaded.1).2, ?_⟩
      have ahead : total.toNat + ((cache.slots hash).drop_count.toNat + cache.drops todo) ≤
          cache.drops cache.keys := loaded.2
      have known : cache.drops cache.keys ≤ (replacements log).length := counted.drops
      have bounded : (replacements log).length < 2 ^ 64 := fitted.overwritten
      have sum : (total + (cache.slots hash).drop_count).toNat = _ :=
        BitVec.toNat_add_of_lt (by omega)
      rw [sum, Nat.add_assoc]
      exact ahead
  | criticalLast =>
    obtain rfl := Option.some.inj stepped
    exact ⟨fits, queue, background,
      proportioned.lower rfl (BitVec.le_def.mpr (Nat.zero_le _)) (BitVec.le_refl _), trivial⟩
  | normalLast =>
    obtain rfl := Option.some.inj stepped
    exact ⟨fits, queue, background,
      proportioned.lower rfl (BitVec.le_refl _) (BitVec.le_def.mpr (Nat.zero_le _)), trivial⟩
  | _ =>
    obtain rfl := Option.some.inj stepped
    exact ⟨fits, queue, background, proportioned, trivial⟩

/-- A reset between two cycles starts both meters anew. -/
theorem reset_meters (counted : Counted s) (fits : Fits s) {order : List U64}
    (here : s.reactor = .loopTest) (idle : s.resetting = .idle)
    (listed : order.Perm s.background_cache.keys) :
    MeterSteps config s (reset_stats s order) := by
  have total := total_dropped counted fits listed
  refine ⟨?_, ?_, ?_, ?_⟩
  · simp only [State.queueMeter, reset_stats, State.record, Stats.zero, here,
      ReactorPc.queuePhase, ledger_append, List.foldl_cons, List.foldl_nil, Ledger.add,
      Ledger.fresh]
    exact .reset rfl
  · simp only [State.backgroundMeter, reset_stats, State.record, Stats.zero, here,
      ReactorPc.backgroundPhase, ledger_append, List.foldl_cons, List.foldl_nil, Ledger.add,
      Ledger.fresh, total]
    exact .reset rfl
  · simp [Proportioned, reset_stats, State.record, here]
  · simp [Loaded, reset_stats, State.record, idle]

end Resetting

section Running

/-- Every step that is not one access of a running `reset_stats()` is a step of both
meters. -/
theorem step_meters (counted : Counted s) (metered : Metered config s) (fits : Fits next)
    {action : Action} (whole : ∀ order, action ≠ .resetStep order)
    (stepped : step config s action = some next) : MeterSteps config s next := by
  have proportioned := metered.proportioned
  have loaded := metered.loaded
  cases step_transition stepped with
  | receive idle known outcome => exact receive_meters counted proportioned loaded outcome fits
  | write => exact .rest rfl rfl proportioned loaded
  | stop | stopWrite =>
    exact .noted rfl (by simp [Event.loses]) rfl (fun _ => rfl) rfl rfl rfl rfl proportioned loaded
  | access access => exact access_meters counted metered access
  | beginReset => exact .rest rfl rfl proportioned trivial
  | resetStep => exact absurd rfl (whole _)
  | reset here idle listed => exact reset_meters counted metered.fits here idle listed

/-- A safe step keeps the meters. -/
theorem step_metered (counted : Counted s) (metered : Metered config s) (fits : Fits next)
    {action : Action} (safe : SafeStore config s action)
    (stepped : step config s action = some next) : Metered config next := by
  by_cases interfering : ∃ order, action = .resetStep order
  · obtain ⟨order, rfl⟩ := interfering
    exact resetStep_metered counted metered safe fits stepped
  · have steps := step_meters counted metered fits
      (fun order same => interfering ⟨order, same⟩) stepped
    exact
      { fits := fits
        queue := DeltaMeter.sound_step metered.queue steps.queue
        background := DeltaMeter.sound_step metered.background steps.background
        proportioned := steps.proportioned
        loaded := steps.loaded }

/-- Runs that count within 2^64 and in which `reset_stats()` stores no unsafe
baseline. -/
def Accountable (config : Config κ) (s : State κ) (action : Action) : Prop :=
  SafeStore config s action ∧ ∀ next, step config s action = some next → Fits next

/-- The reading that is about to be stored can be compared. -/
instance (config : Config κ) (s : State κ) : ∀ pc : ResetPc, Decidable (pc.Safe config s)
  | .storeLast current =>
      inferInstanceAs (Decidable ((s.queueMeter config).Accepts current.toNat))
  | .sumSlots [] total =>
      inferInstanceAs (Decidable ((s.backgroundMeter config).Accepts total.toNat))
  | .sumSlots (_ :: _) _ | .idle | .criticalProcessed | .criticalDropped | .normalProcessed
  | .normalDropped | .backgroundProcessed | .backgroundDropped | .loadDropped | .criticalLast
  | .normalLast | .latencies => isTrue trivial

/-- Only a step of `reset_stats` has to be looked at. -/
instance (config : Config κ) (s : State κ) : ∀ action, Decidable (SafeStore config s action)
  | .resetStep _ => inferInstanceAs (Decidable (s.resetting.Safe config s))
  | .receive .. | .callback _ | .stop _ | .stopWrite _ | .reactor _ | .beginReset | .reset _ =>
      isTrue trivial

/-- The sums can be computed. -/
instance (s : State κ) : Decidable (Fits s) :=
  decidable_of_iff ((rejectedFrames s.log).length < 2 ^ 64 ∧
    (replacements s.log).length < 2 ^ 64 ∧
      s.stats.critical_count_last.toNat + s.stats.normal_count_last.toNat < 2 ^ 64)
    ⟨fun ⟨rejected, overwritten, processed⟩ => ⟨rejected, overwritten, processed⟩,
      fun fits => ⟨fits.rejected, fits.overwritten, fits.processed⟩⟩

/-- One step's share in being accountable, as a check of a replay. -/
def accountable (config : Config κ) (before : State κ) (action : Action) (after : State κ) :
    Bool :=
  decide (SafeStore config before action) && decide (Fits after)

/-- What the check accepts meets the condition. -/
theorem accountable_of_check {action : Action} (stepped : step config s action = some next)
    (passed : accountable config s action next = true) : Accountable config s action := by
  obtain ⟨safe, fits⟩ := Bool.and_eq_true_iff.mp passed
  refine ⟨of_decide_eq_true safe, ?_⟩
  intro after again
  obtain rfl := Option.some.inj (stepped.symm.trans again)
  exact of_decide_eq_true fits

/-- Nothing has been counted. -/
theorem metered_init : Metered config (init κ) where
  fits := by
    constructor <;> simp [init, Stats.zero, rejectedFrames, replacements]
  queue := by simp [DeltaMeter.Sound, State.queueMeter, init, Stats.zero, ReactorPc.queuePhase]
  background := by
    simp [DeltaMeter.Sound, State.backgroundMeter, init, Stats.zero, ReactorPc.backgroundPhase]
  proportioned := trivial
  loaded := trivial

/-- In every accountable run the counters are those of the meters. -/
theorem reachable_metered
    (reached : (machine config).ReachableWithin (Accountable config) s) : Metered config s :=
  Machine.invariant_within (Metered config) metered_init
    (fun _ _ _ met metered permitted stepped =>
      step_metered (reachable_counted met.reachable) metered (permitted.2 _ stepped) permitted.1
        stepped) reached

end Running

end FlowKernel.Reactor
