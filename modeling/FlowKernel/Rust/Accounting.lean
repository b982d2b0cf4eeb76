import Mathlib.Data.BitVec
import Mathlib.Tactic.LinearCombination
import Mathlib.Tactic.Ring
import FlowKernel.Foundation.Totals
import FlowKernel.Rust.Misrouting

/-!
# The books of the Rust reactor

The six counters that `critical_stats`, `normal_stats` and `background_stats` report, next
to the counts that the queue and the slots keep themselves. At a loop boundary nothing is
booked halfway, so every frame offered to the queue has been processed or dropped or is in
it, and every frame put into a slot has been processed or overwritten or is pending.

The loop adds to the three processed counters only. The dropped counters are reported and
reset, but nothing ever adds to them, so they agree with the queue's and the slots' own
counts exactly as long as these are zero.
-/

namespace FlowKernel.Rust

open Foundation

namespace SharedCache

universe u
variable {π : Type u} {s next : State π} {action : Action π}

/-- The frames put into slots. -/
def puts (log : List (Event π)) : List π :=
  log.filterMap fun
    | .put _ _ _ data _ => some data
    | _ => none

/-- The number of slots with a pending frame. -/
def State.pendingCount (s : State π) : Nat :=
  (s.cache.keys.map fun key => (s.pending key).toList.length).sum

/-- The total is the sum over the slots. -/
theorem total_drops_eq (cache : LatestSampleCache π) (order : List U64) :
    cache.total_drops order = (order.map fun key => (cache.slots key).drop_count).sum :=
  Totals.foldl_eq_sum order fun key => (cache.slots key).drop_count

/-- What the cache has been given, and what has become of it. -/
structure Tallied (s : State π) : Prop where
  puts : (puts s.log).length =
    (overwrites s.log).length + s.consumed.length + s.pendingCount
  drops : s.cache.total_drops s.cache.keys = BitVec.ofNat 64 (overwrites s.log).length

/-- Slots with the same counts have the same total. -/
theorem drops_kept (keys : next.cache.keys = s.cache.keys)
    (counts : ∀ key, (next.cache.slots key).drop_count = (s.cache.slots key).drop_count) :
    next.cache.total_drops next.cache.keys = s.cache.total_drops s.cache.keys := by
  simp only [total_drops_eq, keys, counts]

/-- A step that moves no frame keeps the tally. -/
theorem Tallied.kept (tallied : Tallied s) (quiet : Quiet s next)
    (given : SharedCache.puts next.log = SharedCache.puts s.log)
    (consumed : next.consumed = s.consumed)
    (counts : ∀ key, (next.cache.slots key).drop_count = (s.cache.slots key).drop_count) :
    Tallied next where
  puts := by
    simp only [State.pendingCount, given, quiet.overwrites, consumed, quiet.keys, quiet.pending]
    exact tallied.puts
  drops := by
    rw [drops_kept quiet.keys counts, quiet.overwrites]
    exact tallied.drops

/-- A visit passes on what its slot yields. -/
theorem consumed_visit (stepped : step s .visit = some next) :
    next.consumed = s.consumed ++ s.yields.toList := by
  cases step_transition stepped with
  | skip here held =>
    simp [State.consumed, State.record, State.yields, here, held, Drainer.passed, drains]
  | take here free =>
    simp [State.consumed, State.record, State.setSlot, State.yields, here, free, Drainer.passed,
      drains]
  | finish here => simp [State.consumed, State.record, State.yields, here, Drainer.passed, drains]

/-- Nothing else passes anything on. -/
theorem consumed_other (stepped : step s action = some next) (other : action ≠ .visit) :
    next.consumed = s.consumed := by
  cases step_transition stepped with
  | skip | take | finish => exact absurd rfl other
  | begin idle => simp [State.consumed, idle, Drainer.passed]
  | allocate | count => simp [State.consumed, State.record, State.goto, State.setSlot, drains]
  | _ => rfl

/-- A content with the same count changes no count. -/
theorem drop_count_setSlot (cache : LatestSampleCache π) {key : U64} {slot : LatestSampleSlot π}
    (same : slot.drop_count = (cache.slots key).drop_count) (found : U64) :
    ((cache.setSlot key slot).slots found).drop_count = (cache.slots found).drop_count := by
  by_cases here : found = key
  · rw [here, LatestSampleCache.slots_setSlot_self, same]
  · rw [LatestSampleCache.slots_setSlot_other _ _ here]

/-- Only a thread that refers to a slot holds its lock. -/
theorem holder_absent (sound : Sound s) {key : U64} (absent : key ∉ s.cache.keys) :
    s.holder key = none := by
  apply Option.eq_none_iff_forall_not_mem.mpr
  intro thread held
  have locks : (s.threads thread).locks = some key := (sound.owner thread key).mpr held
  apply absent (sound.present thread key _)
  cases here : s.threads thread with
  | idle | found => simp [here, Pc.locks] at locks
  | locked | counted | stored => simpa [here, Pc.locks, Pc.refers] using locks

/-- A slot that is allocated holds nothing and has counted nothing. -/
theorem Tallied.allocate (sound : Sound s) (tallied : Tallied s) {key : U64}
    (cache : next.cache = s.cache.pre_allocate key) (holder : next.holder = s.holder)
    (threads : next.threads = s.threads) (drainer : next.drainer = s.drainer)
    (log : next.log = s.log ++ [.allocated key]) : Tallied next := by
  have slots : next.cache.slots = s.cache.slots := by
    rw [cache]
    exact LatestSampleCache.slots_pre_allocate (sound.absent key)
  have pending : next.pending = s.pending := funext fun found =>
    pending_congr (by rw [slots]) (by rw [holder]) (fun _ _ => by rw [threads])
  have given : SharedCache.puts next.log = SharedCache.puts s.log := by
    simp [log, SharedCache.puts]
  have overwritten : overwrites next.log = overwrites s.log := by simp [log, overwrites]
  have consumed : next.consumed = s.consumed := by simp [State.consumed, log, drainer, drains]
  by_cases present : key ∈ s.cache.keys
  · have keys : next.cache.keys = s.cache.keys := by
      rw [cache, LatestSampleCache.pre_allocate, dif_pos present]
    refine tallied.kept ⟨keys, congrFun pending, fun found => ?_, overwritten⟩ given consumed ?_
    · simp [log, frames]
    · exact fun found => by rw [slots]
  · have keys : next.cache.keys = s.cache.keys ++ [key] := by
      rw [cache, LatestSampleCache.pre_allocate, dif_neg present]
    have fresh : s.cache.slots key = .new key := sound.absent key present
    have nothing : s.pending key = none := by
      rw [pending_free (holder_absent sound present), fresh]
      rfl
    have count : next.pendingCount = s.pendingCount := by
      simp [State.pendingCount, keys, pending, nothing]
    constructor
    · rw [given, overwritten, consumed, count]
      exact tallied.puts
    · have counted : (s.cache.slots key).drop_count = 0 := by
        rw [fresh]
        rfl
      rw [overwritten, ← tallied.drops]
      simp [total_drops_eq, keys, slots, counted]

/-- What one slot has pending changes the count by itself. -/
theorem pendingCount_changed {key : U64} {held : Option π} (present : key ∈ s.cache.keys)
    (keys : next.cache.keys = s.cache.keys)
    (pending : next.pending = Function.update s.pending key held) :
    next.pendingCount + (s.pending key).toList.length = s.pendingCount + held.toList.length := by
  have total := @Totals.sum_changed U64 Nat _ s.cache.keys key
    (fun found => (s.pending found).toList.length) (fun found => (next.pending found).toList.length)
    s.cache.distinct present (fun found other => by rw [pending, Function.update_of_ne other])
  rw [State.pendingCount, keys, State.pendingCount, total, pending, Function.update_self]

/-- The count of a put: the frame is in, and the one it finds is out. -/
theorem Tallied.count (sound : Sound s) (tallied : Tallied s) {thread : Nat} {key hash : U64}
    {data : π} (here : s.threads thread = .locked key hash data)
    (stepped : step s (.work thread) = some next) : Tallied next := by
  obtain ⟨pending, -, overwritten⟩ := (stored_step sound stepped here).1
  have present : key ∈ s.cache.keys := sound.present thread key (by simp [here, Pc.refers])
  have consumed : next.consumed = s.consumed := consumed_other stepped (by simp)
  have keys : next.cache.keys = s.cache.keys := keys_kept stepped (by simp)
  have count := pendingCount_changed present keys pending
  have held : s.pending key = (s.cache.slots key).payload :=
    pending_held ((sound.owner thread key).mp (by simp [here, Pc.locks])) (by simp [here])
  simp only [step, work, here] at stepped
  have given : SharedCache.puts next.log = SharedCache.puts s.log ++ [data] := by
    rw [← Option.some.inj stepped]
    simp [State.record, State.goto, State.setSlot, SharedCache.puts]
  have slots : next.cache = s.cache.setSlot key (s.cache.slots key).count := by
    rw [← Option.some.inj stepped]
    rfl
  constructor
  · have before := tallied.puts
    rw [given, overwritten, consumed, List.length_append, List.length_append]
    cases old : s.pending key <;> simp [old] at count ⊢ <;> omega
  · have total := @Totals.sum_changed U64 U64 _ s.cache.keys key
      (fun found => (s.cache.slots found).drop_count)
      (fun found => (next.cache.slots found).drop_count) s.cache.distinct present
      (fun found other => by rw [slots, LatestSampleCache.slots_setSlot_other _ _ other])
    have before := tallied.drops
    rw [total_drops_eq] at before ⊢
    have more : (LatestRegister.overwritten [(s.cache.slots key).putOperation data]).length =
        ((s.pending key).map fun old => (old, data)).toList.length := by
      rw [held]
      unfold LatestSampleSlot.putOperation
      cases (s.cache.slots key).payload <;> rfl
    rw [before, slots, LatestSampleCache.slots_setSlot_self, drop_count_count _ data, more,
      ← add_assoc, add_right_comm] at total
    rw [keys, slots, overwritten, List.length_append, BitVec.ofNat_add]
    exact add_right_cancel total

/-- Only the count of a put books anything in a slot that is there. -/
theorem uncounted_step (stepped : step s action = some next)
    (fixed : ∀ key, action ≠ .pre_allocate key)
    (uncounted : ∀ thread key hash data, action = .work thread →
      s.threads thread ≠ .locked key hash data) :
    puts next.log = puts s.log ∧
      ∀ key, (next.cache.slots key).drop_count = (s.cache.slots key).drop_count := by
  cases step_transition stepped with
  | allocate => exact absurd rfl (fixed _)
  | count here => exact absurd here (uncounted _ _ _ _ rfl)
  | store => exact ⟨rfl, drop_count_setSlot s.cache rfl⟩
  | take =>
    refine ⟨?_, drop_count_setSlot s.cache rfl⟩
    simp [State.record, State.setSlot, puts]
  | skip | finish =>
    refine ⟨?_, fun _ => rfl⟩
    simp [State.record, puts]
  | _ => exact ⟨rfl, fun _ => rfl⟩

/-- A visit passes a pending frame on, or leaves everything as it is. -/
theorem Tallied.visit (sound : Sound s) (tallied : Tallied s)
    (stepped : step s .visit = some next) : Tallied next := by
  have consumed : next.consumed = s.consumed ++ s.yields.toList := consumed_visit stepped
  obtain ⟨given, counts⟩ := uncounted_step stepped (by simp) (by simp)
  cases yields : s.yields with
  | none =>
    have quiet : Quiet s next := quiet_step sound stepped (by simp [Stirs, yields])
    exact tallied.kept quiet given (by simpa [yields] using consumed) counts
  | some passed =>
    obtain ⟨key, data⟩ := passed
    have keys : next.cache.keys = s.cache.keys := keys_kept stepped (by simp)
    obtain ⟨present, held, pending, -, overwritten⟩ := taken_step sound yields stepped
    have count := pendingCount_changed present keys pending
    constructor
    · have before := tallied.puts
      rw [given, overwritten, consumed, yields, List.length_append]
      simp only [held, Option.toList_some, Option.toList_none, List.length_singleton,
        List.length_nil] at count ⊢
      omega
    · rw [drops_kept keys counts, overwritten]
      exact tallied.drops

/-- Every step counts the overwrite it makes. -/
theorem tallied_step (sound : Sound s) (tallied : Tallied s)
    (stepped : step s action = some next) : Tallied next := by
  cases action with
  | visit => exact tallied.visit sound stepped
  | pre_allocate key =>
    cases step_transition stepped with
    | allocate idle => exact tallied.allocate sound rfl rfl rfl rfl rfl
  | work thread =>
    by_cases counting : ∃ key hash data, s.threads thread = .locked key hash data
    · obtain ⟨key, hash, data, here⟩ := counting
      exact tallied.count sound here stepped
    · obtain ⟨given, counts⟩ := uncounted_step stepped (by simp) (by
        rintro found key hash data ⟨⟩ here
        exact counting ⟨key, hash, data, here⟩)
      exact tallied.kept (quiet_step sound stepped counting) given
        (consumed_other stepped (by simp)) counts
  | get_slot | put | dropRef | drain =>
    obtain ⟨given, counts⟩ := uncounted_step stepped (by simp) (by simp)
    exact tallied.kept (quiet_step sound stepped (by simp [Stirs])) given
      (consumed_other stepped (by simp)) counts

/-- In every run the total is that of the overwrites. -/
theorem reachable_tallied (reached : (machine π).Reachable s) : Tallied s :=
  Machine.invariant Tallied ⟨rfl, rfl⟩
    (fun _ _ _ met tallied stepped => tallied_step (reachable_sound met) tallied stepped) reached

end SharedCache

namespace Reactor

universe u
variable {κ : Type u} {setup : Setup κ} {s next : State κ} {action : Action}

/-- `..Default::default()` leaves the latencies at zero. -/
structure ChannelStats where
  processed : U64
  dropped : U64
deriving DecidableEq

namespace State

/-- What is reported of the CRITICAL channel. -/
def critical_stats (s : State κ) : ChannelStats where
  processed := s.counters.critical_processed
  dropped := s.counters.critical_dropped

/-- What is reported of the NORMAL channel. -/
def normal_stats (s : State κ) : ChannelStats where
  processed := s.counters.normal_processed
  dropped := s.counters.normal_dropped

/-- What is reported of the BACKGROUND channel. -/
def background_stats (s : State κ) : ChannelStats where
  processed := s.counters.background_processed
  dropped := s.counters.background_dropped

/-- `total_drops` of the reactor's cache. -/
def total_drops (s : State κ) : U64 :=
  s.background_cache.cache.total_drops s.background_cache.cache.keys

end State

/-- The samples offered to the queue. -/
def offers (log : List (Event κ)) : List CriticalSample :=
  log.filterMap fun
    | .offered sample _ => some sample
    | _ => none

/-- The pushes of a longer history end in that of its last event. -/
@[simp] theorem offers_snoc (log : List (Event κ)) (event : Event κ) :
    offers (log ++ [event]) = offers log ++ offers [event] :=
  List.filterMap_append

namespace Main

/-- CRITICAL frames processed and not yet added to their counter. -/
def critical : Main → U64
  | .pop critical_count _ | .dispatch _ critical_count _ | .addCritical critical_count _ =>
      critical_count
  | _ => 0

/-- The NORMAL count that the cycle has yet to add. -/
def normal : Main → U64
  | .pop _ normal_count | .dispatch _ _ normal_count | .addCritical _ normal_count
  | .addNormal normal_count => normal_count
  | _ => 0

/-- The BACKGROUND count that the cycle has yet to add. -/
def background : Main → U64
  | .drain background_count | .addBackground background_count => background_count
  | _ => 0

/-- All that the loop has taken and not added yet. -/
def inHand (main : Main) : U64 × U64 × U64 × List CriticalSample :=
  (main.critical, main.normal, main.background, main.sample)

/-- Between two iterations of the main loop. -/
def boundary : Main → Bool
  | .pop critical_count normal_count => critical_count = 0 ∧ normal_count = 0
  | .wait => true
  | _ => false

end Main

/-- The reported counters next to the counts of the queue and the slots. -/
structure Accounted (s : State κ) : Prop where
  queue_drops : s.critical_stats.dropped + s.normal_stats.dropped = s.queue_dropped
  slot_drops : s.background_stats.dropped = s.total_drops
  queue_frames : BitVec.ofNat 64 (offers s.log).length =
    s.critical_stats.processed + s.normal_stats.processed + s.queue_dropped +
      BitVec.ofNat 64 s.critical_queue.length
  slot_frames : BitVec.ofNat 64 (SharedCache.puts s.background_cache.log).length =
    s.background_stats.processed + s.total_drops +
      BitVec.ofNat 64 s.background_cache.pendingCount

/-- What holds of the books at any moment, with what the loop has not added yet. -/
structure Booked (s : State κ) : Prop where
  queue : BitVec.ofNat 64 (offers s.log).length =
    s.counters.critical_processed + s.main.critical +
      (s.counters.normal_processed + s.main.normal) + s.queue_dropped +
        BitVec.ofNat 64 (s.critical_queue.length + s.main.sample.length)
  slots : BitVec.ofNat 64 s.background_cache.consumed.length =
    s.counters.background_processed + s.main.background
  unbooked : s.counters.critical_dropped = 0 ∧ s.counters.normal_dropped = 0 ∧
    s.counters.background_dropped = 0

/-- A step that books nothing and moves nothing in the queue. -/
theorem Booked.kept (booked : Booked s) (log : offers next.log = offers s.log)
    (counters : next.counters = s.counters) (dropped : next.queue_dropped = s.queue_dropped)
    (queue : next.critical_queue = s.critical_queue) (hand : next.main.inHand = s.main.inHand)
    (consumed : next.background_cache.consumed = s.background_cache.consumed) : Booked next := by
  obtain ⟨queued, slots, unbooked⟩ := booked
  simp only [Main.inHand, Prod.mk.injEq] at hand
  obtain ⟨critical, normal, background, sample⟩ := hand
  refine ⟨?_, ?_, ?_⟩
  · rwa [log, counters, dropped, queue, sample, critical, normal]
  · rwa [consumed, counters, background]
  · rwa [counters]

/-- A push is counted whether it is accepted or not. -/
theorem Booked.offered (booked : Booked s) (worker : Nat) (frame : Frame) (work : Work) :
    Booked (offer s worker frame work) where
  queue := by
    have before := booked.queue
    have one : (offers ((offer s worker frame work).log)).length = (offers s.log).length + 1 := by
      simp [offer, State.record, State.goto, offers]
    have unit : BitVec.ofNat 64 1 = (1 : U64) := rfl
    rw [one, BitVec.ofNat_add, before, unit]
    simp only [offer, BoundedFifo.push, State.record, State.goto]
    split
    · simp only [if_true, List.length_append, List.length_singleton, BitVec.ofNat_add, unit]
      ring
    · simp only [Bool.false_eq_true, if_false]
      ring
  slots := booked.slots
  unbooked := booked.unbooked

section Counts

variable {critical_count normal_count : U64} {sample : CriticalSample}

/-- What leaves the queue is with the loop until its dispatch. -/
theorem Booked.popped (booked : Booked s) {queue : List CriticalSample}
    (here : s.main = .pop critical_count normal_count) (front : s.critical_queue = sample :: queue) :
    Booked { s with
      critical_queue := queue, main := .dispatch sample critical_count normal_count } := by
  obtain ⟨queued, slots, unbooked⟩ := booked
  rw [here] at queued slots
  rw [front] at queued
  refine ⟨?_, slots, unbooked⟩
  simpa [Main.critical, Main.normal, Main.sample] using queued

/-- A dispatch adds the sample to one of the local counts. -/
theorem Booked.dispatched (booked : Booked s)
    (here : s.main = .dispatch sample critical_count normal_count) {critical normal : U64}
    (one : critical + normal = critical_count + normal_count + 1)
    (main : next.main = .pop critical normal) (log : offers next.log = offers s.log)
    (counters : next.counters = s.counters) (dropped : next.queue_dropped = s.queue_dropped)
    (queue : next.critical_queue = s.critical_queue)
    (cache : next.background_cache = s.background_cache) : Booked next := by
  have unit : BitVec.ofNat 64 1 = (1 : U64) := rfl
  obtain ⟨queued, slots, unbooked⟩ := booked
  rw [here] at queued slots
  simp only [Main.critical, Main.normal, Main.sample, List.length_singleton, BitVec.ofNat_add,
    unit] at queued
  refine ⟨?_, ?_, by rw [counters]; exact unbooked⟩
  · rw [log, counters, dropped, queue, main, queued]
    simp only [Main.critical, Main.normal, Main.sample, List.length_nil, Nat.add_zero]
    linear_combination -one
  · rw [cache, counters, main]
    exact slots

/-- A local count is added to its counter. -/
theorem Booked.added (booked : Booked s) {main : Main} {counters : Counters}
    (onward : (∃ critical_count normal_count, s.main = .pop critical_count normal_count ∧
        s.critical_queue = [] ∧ main = .addCritical critical_count normal_count ∧
          counters = s.counters) ∨
      (∃ critical_count normal_count, s.main = .addCritical critical_count normal_count ∧
        main = .addNormal normal_count ∧ counters = { s.counters with
          critical_processed := s.counters.critical_processed + critical_count }) ∨
      (∃ normal_count, s.main = .addNormal normal_count ∧ main = .beginDrain ∧
        counters = { s.counters with
          normal_processed := s.counters.normal_processed + normal_count }) ∨
      ∃ background_count, s.main = .addBackground background_count ∧ main = .wait ∧
        counters = { s.counters with
          background_processed := s.counters.background_processed + background_count }) :
    Booked { s with main := main, counters := counters } := by
  obtain ⟨queue, slots, unbooked⟩ := booked
  rcases onward with ⟨_, _, here, empty, rfl, rfl⟩ | ⟨_, _, here, rfl, rfl⟩ |
    ⟨_, here, rfl, rfl⟩ | ⟨_, here, rfl, rfl⟩
  all_goals
    rw [here] at queue slots
    refine ⟨?_, ?_, unbooked⟩
    · simpa [Main.critical, Main.normal, Main.sample] using queue
    · simpa [Main.background] using slots

end Counts

/-- Every step counts the frame it handles. -/
theorem booked_transition (linked : Linked setup s) (booked : Booked s)
    (moved : Transition setup s action next) : Booked next := by
  cases moved with
  | enter here | fail here | spawn here | wake here =>
    exact booked.kept rfl rfl rfl rfl (by rw [here]; rfl) rfl
  | receive here =>
    refine booked.kept ?_ rfl rfl rfl rfl rfl
    simp [State.record, State.goto, offers]
  | offer here free => exact booked.offered _ _ _
  | missing handlers background absent => exact absurd (linked.slotted handlers background) absent
  | notify here => exact booked.kept rfl rfl rfl rfl rfl rfl
  | find here handlers background present cached | lock here handlers cached
  | count here handlers cached | write here cached | dropRef here cached =>
    exact booked.kept rfl rfl rfl rfl rfl (SharedCache.consumed_other cached (by simp))
  | pop here front => exact booked.popped here front
  | invoke here handlers critical =>
    refine booked.dispatched here (by ring) rfl ?_ rfl rfl rfl rfl
    simp [State.record, offers]
  | hand here handlers relaxed =>
    exact booked.dispatched here (by ring) rfl rfl rfl rfl rfl rfl
  | turn onward => exact booked.added onward
  | beginDrain here cached =>
    exact booked.kept rfl rfl rfl rfl (by rw [here]; rfl)
      (SharedCache.consumed_other cached (by simp))
  | finish here ended cached =>
    have consumed := SharedCache.consumed_visit cached
    refine booked.kept rfl rfl rfl rfl (by rw [here]; rfl) ?_
    simpa [SharedCache.State.yields, ended] using consumed
  | skim here nothing cached =>
    have consumed := SharedCache.consumed_visit cached
    exact booked.kept rfl rfl rfl rfl rfl (by simpa [nothing] using consumed)
  | consume here yields cached indexed handlers =>
    have unit : BitVec.ofNat 64 1 = (1 : U64) := rfl
    have consumed := SharedCache.consumed_visit cached
    obtain ⟨queue, slots, unbooked⟩ := booked
    rw [here] at queue slots
    refine ⟨queue, ?_, unbooked⟩
    simp only [Main.background] at slots ⊢
    rw [consumed, yields, Option.toList_some, List.length_append, List.length_singleton,
      BitVec.ofNat_add, slots, unit]
    ring
  | unindexed here yields cached absent => exact absurd absent (linked.indexed yields cached)
  | start => exact booked.kept rfl rfl rfl rfl rfl rfl
  | run | complete =>
    refine booked.kept ?_ rfl rfl rfl rfl rfl
    simp [State.record, offers]

/-- Registrations pass nothing on. -/
theorem Registered.consumed {reactor : DataFlowReactor κ} (registered : Registered reactor) :
    reactor.background_cache.consumed = [] := by
  have places := (SharedCache.reachable_conserved registered.reached).places
  rcases whole : reactor.background_cache.consumed with _ | ⟨⟨hash, frame⟩, rest⟩
  · rfl
  · have none_ := places hash
    rw [registered.frames, whole] at none_
    have empty := none_.symm.eq_nil
    simp [SharedCache.under] at empty

/-- In every run the counters and the counts under way are those of the history. -/
theorem reachable_booked (reached : (machine setup).Reachable s) : Booked s := by
  refine Machine.invariant Booked ⟨rfl, ?_, rfl, rfl, rfl⟩ ?_ reached
  · change BitVec.ofNat 64 setup.reactor.background_cache.consumed.length = _
    rw [(registered_reactor setup).consumed]
    rfl
  · exact fun _ _ _ met booked stepped =>
      booked_transition (reachable_linked met) booked (step_transition stepped)

/-- At a loop boundary the frames are all accounted for, and the reported drops are right
exactly if nothing has been dropped (modulo the width of the counters). -/
theorem accounted_iff (reached : (machine setup).Reachable s) (boundary : s.main.boundary = true) :
    Accounted s ↔ s.queue_dropped = 0 ∧ s.total_drops = 0 := by
  obtain ⟨queue, slots, critical, normal, background⟩ := reachable_booked reached
  have tallied := SharedCache.reachable_tallied (reachable_linked reached).reached
  have settled : s.main.critical = 0 ∧ s.main.normal = 0 ∧ s.main.background = 0 ∧
      s.main.sample = [] := by
    cases here : s.main <;> rw [here] at boundary <;> simp [Main.boundary] at boundary
    · simp [Main.critical, Main.normal, Main.background, Main.sample, boundary]
    · simp [Main.critical, Main.normal, Main.background, Main.sample]
  obtain ⟨noCritical, noNormal, noBackground, noSample⟩ := settled
  constructor
  · intro accounted
    have queued := accounted.queue_drops
    have slotted := accounted.slot_drops
    simp only [State.critical_stats, State.normal_stats, critical, normal] at queued
    simp only [State.background_stats, background] at slotted
    exact ⟨by simpa using queued.symm, slotted.symm⟩
  · rintro ⟨nothing, nowhere⟩
    refine ⟨?_, ?_, ?_, ?_⟩
    · simp [State.critical_stats, State.normal_stats, critical, normal, nothing]
    · simp [State.background_stats, background, nowhere]
    · simpa [noCritical, noNormal, noSample, State.critical_stats, State.normal_stats] using queue
    · have drops : s.total_drops = _ := tallied.drops
      rw [noBackground, add_zero] at slots
      rw [tallied.puts, BitVec.ofNat_add, BitVec.ofNat_add, ← drops, slots, State.background_stats]
      ring

/-- The step neither offers a sample to a full queue nor puts a frame on one that is
pending. -/
def Lossless (setup : Setup κ) (s : State κ) : Action → Prop
  | .work worker => ∀ handler frame, setup.handlers[worker]? = some handler →
      (s.workers worker = .holding frame → handler.priority ≠ .background →
        s.critical_queue.length < queueLimit) ∧
      (s.workers worker = .locked frame →
        (s.background_cache.cache.slots handler.path_hash).payload = none)
  | _ => True

/-- A push that finds room drops nothing. -/
theorem queue_dropped_offer {worker : Nat} {frame : Frame} {work : Work}
    (room : s.critical_queue.length < queueLimit) :
    (offer s worker frame work).queue_dropped = s.queue_dropped := by
  simp [offer, BoundedFifo.push, room, State.record, State.goto]

/-- A task whose push finds room drops nothing. -/
theorem queue_dropped_work {worker : Nat} (lossless : Lossless setup s (.work worker))
    (stepped : work setup s worker = some next) : next.queue_dropped = s.queue_dropped := by
  simp only [work] at stepped
  split at stepped
  next => simp at stepped
  next handler handlers =>
    split at stepped
    next => simp at stepped
    next => simp at stepped
    next frame here =>
      have room := (lossless handler frame handlers).1 here
      split at stepped
      next critical =>
        obtain rfl := Option.some.inj stepped
        exact queue_dropped_offer (room (by simp [critical]))
      next normal =>
        obtain rfl := Option.some.inj stepped
        exact queue_dropped_offer (room (by simp [normal]))
      next =>
        obtain ⟨mid, moved, rfl⟩ := Option.map_eq_some_iff.mp stepped
        obtain ⟨cache, cached, rfl⟩ := cached_eq_some moved
        split <;> rfl
    next =>
      obtain rfl := Option.some.inj stepped
      rfl
    next =>
      obtain ⟨mid, moved, rfl⟩ := Option.map_eq_some_iff.mp stepped
      obtain ⟨cache, cached, rfl⟩ := cached_eq_some moved
      rfl
    next =>
      obtain ⟨mid, moved, rfl⟩ := Option.map_eq_some_iff.mp stepped
      obtain ⟨cache, cached, rfl⟩ := cached_eq_some moved
      rfl
    next =>
      split at stepped
      next =>
        obtain ⟨mid, moved, rfl⟩ := Option.map_eq_some_iff.mp stepped
        obtain ⟨cache, cached, rfl⟩ := cached_eq_some moved
        rfl
      next =>
        obtain ⟨cache, cached, rfl⟩ := cached_eq_some stepped
        rfl

/-- A step without a loss drops nothing. -/
theorem queue_dropped_step (lossless : Lossless setup s action)
    (stepped : step setup s action = some next) : next.queue_dropped = s.queue_dropped := by
  cases action with
  | work worker => exact queue_dropped_work lossless stepped
  | _ =>
    cases step_transition stepped with
    | _ => rfl

/-- A put on an empty slot overwrites nothing, and nothing else overwrites. -/
theorem overwrites_transition (linked : Linked setup s) (lossless : Lossless setup s action)
    (moved : Transition setup s action next) :
    SharedCache.overwrites next.background_cache.log =
      SharedCache.overwrites s.background_cache.log := by
  have sound := SharedCache.reachable_sound linked.reached
  cases moved with
  | find here handlers background present cached =>
    exact (SharedCache.quiet_step sound cached (by simp [SharedCache.Stirs])).overwrites
  | missing handlers background absent => exact absurd (linked.slotted handlers background) absent
  | lock here handlers cached =>
    exact (SharedCache.quiet_step sound cached (by simp [SharedCache.Stirs])).overwrites
  | @count worker frame handler cache here handlers cached =>
    obtain ⟨found, there, background, pc⟩ := linked.at_work here
    obtain rfl : handler = found := Option.some.inj (handlers.symm.trans there)
    have held : s.background_cache.holder handler.path_hash = some worker :=
      (sound.owner worker handler.path_hash).mp (by simp [pc, SharedCache.Pc.locks])
    have empty : s.background_cache.pending handler.path_hash = none := by
      rw [SharedCache.pending_held held (by simp [pc])]
      exact (lossless handler frame handlers).2 here
    have overwritten := (SharedCache.stored_step sound cached pc).1.overwrites
    change SharedCache.overwrites cache.log = _
    simpa [empty] using overwritten
  | @write worker cache here cached =>
    obtain ⟨handler, there, background, pc⟩ := linked.at_work here
    refine (SharedCache.quiet_step sound cached ?_).overwrites
    rintro ⟨key, hash, frame, locked⟩
    rw [locked] at pc
    simp at pc
  | dropRef here cached =>
    exact (SharedCache.quiet_step sound cached (by simp [SharedCache.Stirs])).overwrites
  | beginDrain here cached =>
    exact (SharedCache.quiet_step sound cached (by simp [SharedCache.Stirs])).overwrites
  | finish here ended cached =>
    exact (SharedCache.quiet_step sound cached
      (by simp [SharedCache.Stirs, SharedCache.State.yields, ended])).overwrites
  | skim here nothing cached =>
    exact (SharedCache.quiet_step sound cached (by simp [SharedCache.Stirs, nothing])).overwrites
  | consume here yields cached indexed handlers =>
    exact (SharedCache.taken_step sound yields cached).overwrites
  | unindexed here yields cached absent => exact absurd absent (linked.indexed yields cached)
  | _ => rfl

/-- In every run that loses no frame, the books balance at every loop boundary. -/
theorem books_balance (reached : (machine setup).ReachableWithin (Lossless setup) s)
    (boundary : s.main.boundary = true) : Accounted s := by
  have spotless : s.queue_dropped = 0 ∧
      SharedCache.overwrites s.background_cache.log = [] := by
    apply Machine.invariant_within (fun s => s.queue_dropped = 0 ∧
      SharedCache.overwrites s.background_cache.log = []) _ _ reached
    · exact ⟨rfl, (registered_reactor setup).overwrites⟩
    · rintro before action after met ⟨nothing, none_⟩ lossless stepped
      have linked := reachable_linked met.reachable
      constructor
      · rw [queue_dropped_step lossless stepped, nothing]
      · rw [overwrites_transition linked lossless (step_transition stepped), none_]
  apply (accounted_iff reached.reachable boundary).mpr
  refine ⟨spotless.1, ?_⟩
  have drops := (SharedCache.reachable_tallied (reachable_linked reached.reachable).reached).drops
  rw [spotless.2] at drops
  exact drops

section Examples

open FlowKernel.Reactor (costmapPath)

/-- The condition on a run, checked along it. -/
def lossless (setup : Setup κ) (s : State κ) : Action → State κ → Bool
  | .work worker, _ => setup.handlers[worker]?.all fun handler =>
      match s.workers worker with
      | .holding _ => handler.priority = .background || s.critical_queue.length < queueLimit
      | .locked _ => (s.background_cache.cache.slots handler.path_hash).payload.isNone
      | _ => true
  | _, _ => true

/-- What the check accepts meets the condition. -/
theorem lossless_of_check (s : State κ) (action : Action) (next : State κ)
    (passed : lossless setup s action next = true) : Lossless setup s action := by
  cases action with
  | work worker =>
    intro handler frame handlers
    simp only [lossless, handlers, Option.all_some] at passed
    constructor
    · intro here relaxed
      simpa [here, relaxed] using passed
    · intro here
      simpa [here] using passed
  | _ => trivial

/-- The subscribers of `basic_pubsub` are declared, and the loop begins. -/
def declare : List Action :=
  List.replicate 4 (.spawn (.ok ()))

/-- A telemetry frame on its way into the queue. -/
def telemetry : List Action :=
  [.receive 1 [1], .work 1]

/-- A costmap frame on its way into its slot. -/
def costmap : List Action :=
  .receive 2 [2] :: List.replicate 6 (.work 2)

/-- An iteration of the main loop that finds the given number of telemetry frames. -/
def iteration (frames : Nat) : List Action :=
  List.replicate (2 * frames + 3) .loop ++ [.drain [fnv1a_hash costmapPath], .loop]

/-- A frame in each channel is processed, and another one comes in. -/
theorem countedRun_balances : ∃ s, (machine basicPubsub).execWithin (lossless basicPubsub)
      (init basicPubsub) (declare ++ telemetry ++ costmap ++ iteration 1 ++ [.loop, .loop] ++
        telemetry ++ costmap) = some s ∧
    s.normal_stats = ⟨1, 0⟩ ∧ s.background_stats = ⟨1, 0⟩ ∧ s.critical_queue.length = 1 ∧
      s.background_cache.pendingCount = 1 ∧ Accounted s := by
  have outcome : ((machine basicPubsub).execWithin (lossless basicPubsub)
      (init basicPubsub) (declare ++ telemetry ++ costmap ++ iteration 1 ++ [.loop, .loop] ++
        telemetry ++ costmap)).map (fun s => (s.normal_stats, s.background_stats,
          s.critical_queue.length, s.background_cache.pendingCount, s.main.boundary)) =
        some (⟨1, 0⟩, ⟨1, 0⟩, 1, 1, true) := by
    decide +kernel
  obtain ⟨s, ran, seen⟩ := Option.map_eq_some_iff.mp outcome
  simp only [Prod.mk.injEq] at seen
  obtain ⟨normal, background, queued, pending, boundary⟩ := seen
  refine ⟨s, ran, normal, background, queued, pending, @books_balance _ basicPubsub s ?_ boundary⟩
  exact Machine.ReachableWithin.exec (fun s action next _ => lossless_of_check s action next)
    .start ran

/-- A costmap frame is overwritten, and the background counter does not report it. -/
theorem lossyRun_unreported : ∃ s, (machine basicPubsub).exec (init basicPubsub)
      (declare ++ costmap ++ costmap) = some s ∧
    s.main.boundary = true ∧ s.total_drops = 1 ∧ s.background_stats.dropped = 0 ∧
      ¬ ∀ s : State Nat, (machine basicPubsub).Reachable s → s.main.boundary = true →
        Accounted s := by
  have outcome : ((machine basicPubsub).exec (init basicPubsub)
      (declare ++ costmap ++ costmap)).map (fun s => (s.main.boundary, s.total_drops,
        s.background_stats.dropped)) = some (true, 1, 0) := by
    decide +kernel
  obtain ⟨s, ran, seen⟩ := Option.map_eq_some_iff.mp outcome
  simp only [Prod.mk.injEq] at seen
  obtain ⟨boundary, drops, unseen⟩ := seen
  refine ⟨s, ran, boundary, drops, unseen, fun every => ?_⟩
  have slotted := (every s (Machine.reachable_of_exec ran) boundary).slot_drops
  rw [unseen, drops] at slotted
  exact absurd slotted (by decide)

end Examples

end Reactor

end FlowKernel.Rust
