import Mathlib.Data.List.Forall2
import FlowKernel.LatestCache
import FlowKernel.Rust.CachePlaces

/-!
# The Rust cache and the C++ cache

As long as no lock is held when a drain begins and no put begins while it runs,
nothing but lookups happens until the drain ends, and it passes on what an undisturbed
drain would. If puts also name the slot they have found, the history of calls can be
replayed by the C++ cache, drain by drain, and the callers of the two caches see the
same.
-/

namespace FlowKernel.Rust.SharedCache

open Foundation

universe u
variable {π : Type u} {s next : State π} {action : Action π}

/-- A put that names the slot it has found, while no drain runs, and a drain that finds
no slot locked. -/
def Undisturbed (s : State π) : Action π → Prop
  | .put thread hash _ => s.drainer.resting = true ∧ (s.threads thread).refers = some hash
  | .drain _ => ∀ key ∈ s.cache.keys, s.holder key = none
  | _ => True

/-- In such runs puts name their own slots, and no put runs during a drain. -/
structure Calm (s : State π) : Prop where
  named : ∀ thread key hash data, s.threads thread = .locked key hash data → hash = key
  still : s.drainer.resting = false → ∀ key, s.holder key = none

/-- One thread moves to a state in which it is not about to count. -/
theorem Calm.named_goto (calm : Calm s) {thread : Nat} {pc : Pc π}
    (threads : next.threads = Function.update s.threads thread pc)
    (own : ∀ key hash data, pc = .locked key hash data → hash = key) (found : Nat)
    (key hash : U64) (data : π) (here : next.threads found = .locked key hash data) :
    hash = key := by
  rw [threads] at here
  by_cases same : found = thread
  · subst same
    rw [Function.update_self] at here
    exact own key hash data here
  · rw [Function.update_of_ne same] at here
    exact calm.named found key hash data here

/-- A step that does not disturb a drain keeps the cache calm. -/
theorem calm_transition (sound : Sound s) (calm : Calm s) (allowed : Undisturbed s action)
    (moved : Transition s action next) : Calm next := by
  cases moved with
  | miss => exact calm
  | allocate => exact ⟨calm.named, calm.still⟩
  | find => exact ⟨calm.named_goto rfl (by simp), calm.still⟩
  | @lock thread key hash data here free =>
    obtain ⟨resting, refers⟩ := allowed
    rw [here] at refers
    refine ⟨calm.named_goto rfl ?_, ?_⟩
    · rintro found name frame ⟨⟩
      exact (Option.some.inj refers).symm
    · intro draining
      simp [State.goto, State.setHolder, resting] at draining
  | count => exact ⟨calm.named_goto rfl (by simp), calm.still⟩
  | store => exact ⟨calm.named_goto rfl (by simp), calm.still⟩
  | @unlock thread key here =>
    refine ⟨calm.named_goto rfl (by simp), ?_⟩
    intro draining found
    by_cases same : found = key
    · subst same
      exact Function.update_self found _ _
    · exact (Function.update_of_ne same _ _).trans (calm.still draining found)
  | dropRef => exact ⟨calm.named_goto rfl (by simp), calm.still⟩
  | @begin order idle listed =>
    refine ⟨calm.named, ?_⟩
    intro _ key
    by_cases present : key ∈ s.cache.keys
    · exact allowed key present
    · cases held : s.holder key with
      | none => rfl
      | some thread =>
        have locks := (sound.owner thread key).mpr held
        have refers : (s.threads thread).refers = some key := by
          cases here : s.threads thread <;> simp_all [Pc.locks, Pc.refers]
        exact absurd (sound.present thread key refers) present
  | skip here held => exact ⟨calm.named, fun _ => calm.still (by rw [here]; rfl)⟩
  | take here free => exact ⟨calm.named, fun _ => calm.still (by rw [here]; rfl)⟩
  | finish =>
    refine ⟨calm.named, fun draining => ?_⟩
    simp [State.record, Drainer.resting] at draining

/-- In an undisturbed run no put is under way while a drain is. -/
theorem reachable_calm (reached : (machine π).ReachableWithin Undisturbed s) : Calm s := by
  refine Machine.invariant_within Calm ?_ ?_ reached
  · exact ⟨by simp [machine, init], by simp [machine, init]⟩
  · intro before action after met calm allowed stepped
    exact calm_transition (reachable_sound met.reachable) calm allowed (step_transition stepped)

/-- The calls that both caches understand. -/
inductive Call (π : Type u) where
  | pre_allocate (key : U64)
  | put (key hash : U64) (data : π)
  | drain

/-- The calls of a run, in the order in which they took effect. -/
def history (log : List (Event π)) : List (Call π) :=
  log.filterMap fun
    | .allocated key => some (.pre_allocate key)
    | .put _ key hash data _ => some (.put key hash data)
    | .drained _ => some .drain
    | _ => none

/-- The calls of a longer history end in that of its last event. -/
@[simp] theorem history_snoc (log : List (Event π)) (event : Event π) :
    history (log ++ [event]) = history log ++ history [event] :=
  List.filterMap_append

/-- What the C++ consumer is called with, but for the time of the put. -/
def pair (sample : HeldSample π) : U64 × π :=
  (sample.handler_hash, sample.payload)

/-- The C++ cache after a history of calls, with what each of its drains has yielded.
Its clock and the order of its walks are its own. -/
inductive Replayed :
    List (Call π) → FlowKernel.LatestSampleCache π → List (List (U64 × π)) → Prop
  | new : Replayed [] .empty []
  | pre_allocate {calls : List (Call π)} {cache : FlowKernel.LatestSampleCache π}
      {yields : List (List (U64 × π))} {key : U64} (earlier : Replayed calls cache yields) :
      Replayed (calls ++ [.pre_allocate key]) (cache.pre_allocate key) yields
  | put {calls : List (Call π)} {cache : FlowKernel.LatestSampleCache π}
      {yields : List (List (U64 × π))} {key hash : U64} {data : π}
      {slot : FlowKernel.LatestSampleSlot π} {now : TimePoint}
      (earlier : Replayed calls cache yields) (found : cache.get_slot_fast key = some slot) :
      Replayed (calls ++ [.put key hash data]) (cache.setSlot key (slot.put hash data now)) yields
  | drain {calls : List (Call π)} {cache : FlowKernel.LatestSampleCache π}
      {yields : List (List (U64 × π))} {order : List U64}
      (earlier : Replayed calls cache yields) (listed : order.Perm cache.keys) :
      Replayed (calls ++ [.drain]) (cache.drain order).2
        (yields ++ [(cache.drain order).1.map pair])

/-- Both caches, when a drain of the Rust one has visited some slots and the C++ one has
not begun to drain. -/
structure Mirrors (s : State π) (cache : FlowKernel.LatestSampleCache π)
    (visited : List U64) : Prop where
  keys : cache.keys = s.cache.keys
  counts : ∀ key, (cache.slots key).drop_count = (s.cache.slots key).drop_count
  own : ∀ key sample, (cache.slots key).held = some sample → sample.handler_hash = key
  absent : ∀ key, key ∉ s.cache.keys → (cache.slots key).held = none
  emptied : ∀ key ∈ visited, s.pending key = none
  held : ∀ key, key ∉ visited → s.pending key = (cache.slots key).payload?
  idle : s.drainer = .idle → visited = []
  walk : ∀ todo passed, s.drainer = .drain todo passed →
    (visited ++ todo).Perm s.cache.keys ∧
      passed = visited.filterMap fun key => (cache.slots key).held.map pair

/-- Everything the two caches let their callers see is the same. -/
structure Agrees (s : State π) (cache : FlowKernel.LatestSampleCache π)
    (yields : List (List (U64 × π))) : Prop where
  keys : ∀ key, (s.cache.get_slot key).isSome = (cache.get_slot_fast key).isSome
  drained : List.Forall₂ List.Perm (drains s.log) yields
  drops : ∀ order walk : List U64, order.Perm s.cache.keys → walk.Perm cache.keys →
    s.cache.total_drops order = cache.get_total_dropped walk

section Simulation

variable {cache : FlowKernel.LatestSampleCache π} {visited : List U64} {thread : Nat}
  {key hash : U64} {data : π}

/-- Two empty maps mirror each other. -/
theorem mirrors_init : Mirrors (init π) .empty [] where
  keys := rfl
  counts _ := rfl
  own _ _ held := by simp [FlowKernel.LatestSampleCache.empty, LatestSampleSlot.empty] at held
  absent _ _ := rfl
  emptied _ member := by simp at member
  held _ _ := rfl
  idle _ := rfl
  walk _ _ here := by simp [init] at here

/-- A step that no caller of the cache sees. -/
theorem Mirrors.kept (mirrors : Mirrors s cache visited) (keys : next.cache.keys = s.cache.keys)
    (counts : ∀ key, (next.cache.slots key).drop_count = (s.cache.slots key).drop_count)
    (pending : ∀ key, next.pending key = s.pending key) (drainer : next.drainer = s.drainer) :
    Mirrors next cache visited where
  keys := mirrors.keys.trans keys.symm
  counts key := (mirrors.counts key).trans (counts key).symm
  own := mirrors.own
  absent := by
    rw [keys]
    exact mirrors.absent
  emptied key member := (pending key).trans (mirrors.emptied key member)
  held key outside := (pending key).trans (mirrors.held key outside)
  idle := by
    rw [drainer]
    exact mirrors.idle
  walk := by
    rw [drainer, keys]
    exact mirrors.walk

/-- The slots left to visit have not been visited. -/
theorem Mirrors.fresh (mirrors : Mirrors s cache visited) {todo : List U64}
    {passed : List (U64 × π)} (here : s.drainer = .drain (key :: todo) passed) :
    key ∉ visited := by
  intro member
  have walk := (mirrors.walk _ _ here).1
  have distinct : (visited ++ key :: todo).Nodup := walk.symm.nodup s.cache.distinct
  exact (List.nodup_append.mp distinct).2.2 key member key (List.mem_cons_self ..) rfl

/-- Between drains a slot holds in one cache what is pending there in the other. -/
theorem Mirrors.pending_idle (mirrors : Mirrors s cache visited) (idle : s.drainer = .idle)
    (key : U64) : s.pending key = (cache.slots key).payload? := by
  apply mirrors.held
  rw [mirrors.idle idle]
  exact List.not_mem_nil

/-- A drain begins with every slot before it. -/
theorem Mirrors.begin (mirrors : Mirrors s cache visited) {order : List U64}
    (idle : s.drainer = .idle) (listed : order.Perm s.cache.keys) :
    Mirrors { s with drainer := .drain order [] } cache [] where
  keys := mirrors.keys
  counts := mirrors.counts
  own := mirrors.own
  absent := mirrors.absent
  emptied _ member := by simp at member
  held key _ := mirrors.pending_idle idle key
  idle here := by simp at here
  walk := by
    rintro todo passed ⟨⟩
    exact ⟨listed, rfl⟩

/-- The drain takes from both slots. -/
theorem Mirrors.take (mirrors : Mirrors s cache visited) (sound : Sound s) {todo : List U64}
    {passed : List (U64 × π)} (here : s.drainer = .drain (key :: todo) passed)
    (free : s.holder key = none) :
    Mirrors (({ s with
      drainer := .drain todo (passed ++ (s.cache.slots key).take.1.toList) }.setSlot key
        (s.cache.slots key).take.2).record (.visited key (s.cache.slots key).takeOperation))
          cache (visited ++ [key]) where
  keys := mirrors.keys
  counts found := by
    rw [mirrors.counts found]
    by_cases same : found = key
    · subst same
      simp [State.record, State.setSlot, LatestSampleSlot.take]
    · simp [State.record, State.setSlot, LatestSampleCache.slots_setSlot_other _ _ same]
  own := mirrors.own
  absent := mirrors.absent
  emptied found member := by
    rw [pending_take free]
    split
    · rfl
    next other =>
      have earlier : found ∈ visited := by simpa [Ne.symm other] using member
      exact mirrors.emptied found earlier
  held found outside := by
    rw [List.mem_append, List.mem_singleton, not_or] at outside
    rw [pending_take free, if_neg (Ne.symm outside.2)]
    exact mirrors.held found outside.1
  idle here := by simp [State.record, State.setSlot] at here
  walk := by
    rintro rest handed ⟨⟩
    obtain ⟨walk, same⟩ := mirrors.walk _ _ here
    refine ⟨by simpa [State.record, State.setSlot] using walk, ?_⟩
    have held : (s.cache.slots key).payload = (cache.slots key).payload? :=
      (pending_free free).symm.trans (mirrors.held key (mirrors.fresh here))
    have yield : (s.cache.slots key).take.1 = (cache.slots key).held.map pair := by
      rw [LatestSampleSlot.take, held, (sound.slot key).own]
      cases present : (cache.slots key).held with
      | none => simp [FlowKernel.LatestSampleSlot.payload?, present]
      | some sample =>
        simp [FlowKernel.LatestSampleSlot.payload?, present, pair, mirrors.own key sample present]
    rw [same, yield, List.filterMap_append, List.filterMap_cons]
    cases (cache.slots key).held.map pair <;> rfl

/-- Both maps allocate the slot. -/
theorem Mirrors.allocate (mirrors : Mirrors s cache visited) (sound : Sound s)
    (idle : s.drainer = .idle) :
    Mirrors ({ s with cache := s.cache.pre_allocate key }.record (.allocated key))
      (cache.pre_allocate key) visited := by
  have slots : (s.cache.pre_allocate key).slots = s.cache.slots :=
    LatestSampleCache.slots_pre_allocate (sound.absent key)
  have grown : ∀ found ∈ s.cache.keys, found ∈ (s.cache.pre_allocate key).keys :=
    fun found member => LatestSampleCache.mem_pre_allocate.mpr (.inl member)
  have pending : ∀ found, ({ s with cache := s.cache.pre_allocate key }.record
      (.allocated key)).pending found = s.pending found := fun found =>
    pending_congr (by simp [State.record, slots]) rfl (fun _ _ => rfl)
  exact
    { keys := by
        simp only [State.record, FlowKernel.LatestSampleCache.pre_allocate,
          LatestSampleCache.pre_allocate, mirrors.keys]
        split
        · exact mirrors.keys
        · rfl
      counts := by
        intro found
        rw [FlowKernel.LatestSampleCache.slots_pre_allocate]
        simpa [State.record, slots] using mirrors.counts found
      own := by
        rw [FlowKernel.LatestSampleCache.slots_pre_allocate]
        exact mirrors.own
      absent := by
        rw [FlowKernel.LatestSampleCache.slots_pre_allocate]
        exact fun found outside => mirrors.absent found fun member => outside (grown found member)
      emptied := fun found member => (pending found).trans (mirrors.emptied found member)
      held := by
        rw [FlowKernel.LatestSampleCache.slots_pre_allocate]
        exact fun found outside => (pending found).trans (mirrors.held found outside)
      idle := mirrors.idle
      walk := by
        intro todo passed here
        simp [State.record, idle] at here }

/-- With its count a put is done in the other cache. -/
theorem Mirrors.count (mirrors : Mirrors s cache visited) (sound : Sound s) (calm : Calm s)
    (here : s.threads thread = .locked key hash data) (now : TimePoint) :
    Mirrors (((s.setSlot key (s.cache.slots key).count).goto thread (.counted key data)).record
      (.put thread key hash data ((s.cache.slots key).putOperation data)))
        (cache.setSlot key ((cache.slots key).put hash data now)) visited := by
  have held : s.holder key = some thread := (sound.owner thread key).mp (by simp [here, Pc.locks])
  have idle : s.drainer = .idle := by
    cases resting : s.drainer with
    | idle => rfl
    | drain todo passed =>
      have free := calm.still (by rw [resting]; rfl) key
      simp [held] at free
  have present : key ∈ s.cache.keys := sound.present thread key (by rw [here]; rfl)
  have named : hash = key := calm.named thread key hash data here
  have before : (s.cache.slots key).payload = (cache.slots key).payload? :=
    (pending_held held (by simp [here])).symm.trans (mirrors.pending_idle idle key)
  have found : (cache.slots key).held.isSome = (s.cache.slots key).payload.isSome := by
    rw [before, FlowKernel.LatestSampleSlot.payload?, Option.isSome_map]
  exact
    { keys := mirrors.keys
      counts := by
        intro target
        by_cases same : target = key
        · subst same
          have counts := mirrors.counts target
          simp only [FlowKernel.LatestSampleCache.slots_setSlot_self, State.record, State.goto,
            State.setSlot, LatestSampleCache.slots_setSlot_self, FlowKernel.LatestSampleSlot.put,
            LatestSampleSlot.count, found, counts]
          split <;> rfl
        · rw [FlowKernel.LatestSampleCache.slots_setSlot_other _ _ same, mirrors.counts target]
          simp [State.record, State.goto, State.setSlot,
            LatestSampleCache.slots_setSlot_other _ _ same]
      own := by
        intro target sample inside
        by_cases same : target = key
        · subst same
          rw [FlowKernel.LatestSampleCache.slots_setSlot_self] at inside
          obtain rfl := Option.some.inj inside
          exact named
        · rw [FlowKernel.LatestSampleCache.slots_setSlot_other _ _ same] at inside
          exact mirrors.own target sample inside
      absent := by
        intro target outside
        have other : target ≠ key := fun same => outside (same ▸ present)
        rw [FlowKernel.LatestSampleCache.slots_setSlot_other _ _ other]
        exact mirrors.absent target outside
      emptied := by
        rw [mirrors.idle idle]
        simp
      held := by
        intro target _
        rw [sound.pending_count here]
        by_cases same : key = target
        · subst same
          rw [if_pos rfl, FlowKernel.LatestSampleCache.slots_setSlot_self]
          rfl
        · rw [if_neg same,
            FlowKernel.LatestSampleCache.slots_setSlot_other _ _ (Ne.symm same)]
          exact mirrors.pending_idle idle target
      idle := mirrors.idle
      walk := by
        intro todo passed draining
        simp [State.record, State.goto, State.setSlot, idle] at draining }

/-- When a drain ends, nothing is pending, as after a drain of the C++ cache. -/
theorem Mirrors.finish (mirrors : Mirrors s cache visited) {passed : List (U64 × π)}
    (here : s.drainer = .drain [] passed) {order : List U64} (listed : order.Perm cache.keys) :
    Mirrors ({ s with drainer := .idle }.record (.drained passed)) (cache.drain order).2 [] ∧
      passed.Perm ((cache.drain order).1.map pair) := by
  obtain ⟨walk, same⟩ := mirrors.walk _ _ here
  rw [List.append_nil] at walk
  have emptied : ∀ key, ((cache.drain order).2.slots key).held = none := by
    intro key
    rw [FlowKernel.LatestSampleCache.slots_drain]
    split
    · rfl
    next outside =>
      apply mirrors.absent
      rw [← mirrors.keys]
      exact fun member => outside (listed.symm.subset member)
  have nothing : ∀ key, s.pending key = none := by
    intro key
    by_cases member : key ∈ visited
    · exact mirrors.emptied key member
    · have outside : key ∉ s.cache.keys := fun present => member (walk.symm.subset present)
      rw [mirrors.held key member, FlowKernel.LatestSampleSlot.payload?,
        mirrors.absent key outside, Option.map_none]
  refine ⟨?_, ?_⟩
  · exact
      { keys := (FlowKernel.LatestSampleCache.keys_drain cache).trans mirrors.keys
        counts := by
          intro key
          rw [FlowKernel.LatestSampleCache.slots_drain]
          refine Eq.trans ?_ (mirrors.counts key)
          split <;> rfl
        own := by
          intro key sample held
          simp [emptied key] at held
        absent := fun key _ => emptied key
        emptied := by simp
        held := by
          intro key _
          rw [FlowKernel.LatestSampleSlot.payload?, emptied key]
          exact nothing key
        idle := fun _ => rfl
        walk := by
          intro todo passed draining
          simp [State.record] at draining }
  · have distinct : order.Nodup := listed.symm.nodup cache.distinct
    rw [FlowKernel.LatestSampleCache.yields_drain cache distinct, List.map_filterMap, same]
    exact (walk.trans (mirrors.keys ▸ listed.symm)).filterMap _

end Simulation

/-- A run of the Rust cache can be replayed, and every replay is mirrored. -/
structure Observed (s : State π) : Prop where
  replay : ∃ cache yields, Replayed (history s.log) cache yields
  mirror : ∀ cache yields, Replayed (history s.log) cache yields →
    (∃ visited, Mirrors s cache visited) ∧ List.Forall₂ List.Perm (drains s.log) yields

/-- Two empty maps are observed alike. -/
theorem observed_init : Observed (init π) where
  replay := ⟨_, _, .new⟩
  mirror := by
    intro cache yields replayed
    have start : ∀ calls, Replayed calls cache yields → calls = [] →
        (∃ visited, Mirrors (init π) cache visited) ∧
          List.Forall₂ List.Perm (drains (init π).log) yields := by
      intro calls replayed
      cases replayed with
      | new => exact fun _ => ⟨⟨[], mirrors_init⟩, .nil⟩
      | _ => simp
    exact start _ replayed rfl

/-- A step that completes no call. -/
theorem Observed.silent (observed : Observed s) (calls : history next.log = history s.log)
    (yields : drains next.log = drains s.log)
    (mirrors : ∀ cache visited, Mirrors s cache visited →
      ∃ visited, Mirrors next cache visited) : Observed next where
  replay := by
    rw [calls]
    exact observed.replay
  mirror := by
    rw [calls, yields]
    intro cache results replayed
    obtain ⟨⟨visited, mirror⟩, drained⟩ := observed.mirror cache results replayed
    exact ⟨mirrors cache visited mirror, drained⟩

section Inversion

variable {calls : List (Call π)} {cache : FlowKernel.LatestSampleCache π}
  {yields : List (List (U64 × π))} {key hash : U64} {data : π}

/-- The last call of a replay is an allocation. -/
theorem Replayed.of_pre_allocate
    (replayed : Replayed (calls ++ [Call.pre_allocate key]) cache yields) :
    ∃ before, Replayed calls before yields ∧ cache = before.pre_allocate key := by
  generalize whole : calls ++ [Call.pre_allocate key] = all at replayed
  cases replayed with
  | new => simp at whole
  | pre_allocate earlier =>
    obtain ⟨rfl, last⟩ := List.append_inj' whole rfl
    obtain ⟨⟩ := last
    exact ⟨_, earlier, rfl⟩
  | put => exact absurd (List.append_inj' whole rfl).2 (by simp)
  | drain => exact absurd (List.append_inj' whole rfl).2 (by simp)

/-- The last call of a replay is a put, at some time. -/
theorem Replayed.of_put (replayed : Replayed (calls ++ [Call.put key hash data]) cache yields) :
    ∃ before now, Replayed calls before yields ∧
      cache = before.setSlot key ((before.slots key).put hash data now) := by
  generalize whole : calls ++ [Call.put key hash data] = all at replayed
  cases replayed with
  | new => simp at whole
  | pre_allocate => exact absurd (List.append_inj' whole rfl).2 (by simp)
  | put earlier found =>
    obtain ⟨rfl, last⟩ := List.append_inj' whole rfl
    obtain ⟨⟩ := last
    simp only [FlowKernel.LatestSampleCache.get_slot_fast] at found
    split at found
    · obtain rfl := Option.some.inj found
      exact ⟨_, _, earlier, rfl⟩
    · simp at found
  | drain => exact absurd (List.append_inj' whole rfl).2 (by simp)

/-- The last call of a replay is a drain, in some order of the slots. -/
theorem Replayed.of_drain (replayed : Replayed (calls ++ [Call.drain]) cache yields) :
    ∃ before results order, Replayed calls before results ∧ order.Perm before.keys ∧
      cache = (before.drain order).2 ∧ yields = results ++ [(before.drain order).1.map pair] := by
  generalize whole : calls ++ [Call.drain] = all at replayed
  cases replayed with
  | new => simp at whole
  | pre_allocate => exact absurd (List.append_inj' whole rfl).2 (by simp)
  | put => exact absurd (List.append_inj' whole rfl).2 (by simp)
  | drain earlier listed =>
    obtain ⟨rfl, -⟩ := List.append_inj' whole rfl
    exact ⟨_, _, _, earlier, listed, rfl, rfl⟩

end Inversion

/-- Every step keeps the two caches observed alike. -/
theorem observed_transition (sound : Sound s) (calm : Calm s) (observed : Observed s)
    (moved : Transition s action next) : Observed next := by
  cases moved with
  | miss => exact observed
  | @allocate key idle =>
    have calls : history (s.log ++ [Event.allocated key]) =
        history s.log ++ [Call.pre_allocate key] := by
      simp [history]
    have same : drains (s.log ++ [Event.allocated key]) = drains s.log := by simp [drains]
    refine ⟨?_, ?_⟩
    · obtain ⟨cache, yields, replayed⟩ := observed.replay
      exact ⟨_, _, calls ▸ replayed.pre_allocate⟩
    · intro cache yields replayed
      simp only [State.record, calls, same] at replayed ⊢
      obtain ⟨before, earlier, rfl⟩ := replayed.of_pre_allocate
      obtain ⟨⟨visited, mirrors⟩, drained⟩ := observed.mirror before yields earlier
      exact ⟨⟨visited, mirrors.allocate sound idle⟩, drained⟩
  | @find thread key idle present =>
    refine observed.silent rfl rfl fun cache visited mirrors => ⟨visited, ?_⟩
    refine mirrors.kept rfl (fun _ => rfl) (fun found => ?_) rfl
    exact sound.pending_other rfl (by simp [idle, Pc.locks]) rfl rfl
  | @lock thread key hash data here free =>
    refine observed.silent rfl rfl fun cache visited mirrors => ⟨visited, ?_⟩
    exact mirrors.kept rfl (fun _ => rfl) (sound.pending_lock here free) rfl
  | @count thread key hash data here =>
    have calls : history (s.log ++ [Event.put thread key hash data
        ((s.cache.slots key).putOperation data)]) = history s.log ++ [Call.put key hash data] := by
      simp [history]
    have same : drains (s.log ++ [Event.put thread key hash data
        ((s.cache.slots key).putOperation data)]) = drains s.log := by simp [drains]
    have present : key ∈ s.cache.keys := sound.present thread key (by rw [here]; rfl)
    refine ⟨?_, ?_⟩
    · obtain ⟨cache, yields, replayed⟩ := observed.replay
      obtain ⟨⟨visited, mirrors⟩, -⟩ := observed.mirror cache yields replayed
      have found : cache.get_slot_fast key = some (cache.slots key) :=
        if_pos (mirrors.keys ▸ present)
      exact ⟨_, yields, calls ▸ @Replayed.put _ _ _ _ _ hash data _ 0 replayed found⟩
    · intro cache yields replayed
      simp only [State.record, State.goto, State.setSlot, calls, same] at replayed ⊢
      obtain ⟨before, now, earlier, rfl⟩ := replayed.of_put
      obtain ⟨⟨visited, mirrors⟩, drained⟩ := observed.mirror before yields earlier
      exact ⟨⟨visited, mirrors.count sound calm here now⟩, drained⟩
  | @store thread key data here =>
    refine observed.silent rfl rfl fun cache visited mirrors => ⟨visited, ?_⟩
    refine mirrors.kept rfl (fun found => ?_) (sound.pending_store here) rfl
    by_cases same : found = key
    · subst same
      simp [State.goto, State.setSlot, LatestSampleSlot.store]
    · simp [State.goto, State.setSlot, LatestSampleCache.slots_setSlot_other _ _ same]
  | @unlock thread key here =>
    refine observed.silent rfl rfl fun cache visited mirrors => ⟨visited, ?_⟩
    exact mirrors.kept rfl (fun _ => rfl) (sound.pending_unlock here) rfl
  | @dropRef thread key here =>
    refine observed.silent rfl rfl fun cache visited mirrors => ⟨visited, ?_⟩
    refine mirrors.kept rfl (fun _ => rfl) (fun found => ?_) rfl
    exact sound.pending_other rfl (by simp [here, Pc.locks]) rfl rfl
  | @begin order idle listed =>
    exact observed.silent rfl rfl fun cache visited mirrors => ⟨[], mirrors.begin idle listed⟩
  | @skip key todo passed thread here held =>
    have free := calm.still (by rw [here]; rfl) key
    simp [held] at free
  | @take key todo passed here free =>
    refine observed.silent ?_ ?_ fun cache visited mirrors => ⟨_, mirrors.take sound here free⟩
    · simp [State.record, State.setSlot, history]
    · simp [State.record, State.setSlot, drains]
  | @finish passed here =>
    have calls : history (s.log ++ [Event.drained passed]) = history s.log ++ [Call.drain] := by
      simp [history]
    have more : drains (s.log ++ [Event.drained passed]) = drains s.log ++ [passed] := by
      simp [drains]
    refine ⟨?_, ?_⟩
    · obtain ⟨cache, yields, replayed⟩ := observed.replay
      exact ⟨_, _, calls ▸ replayed.drain (List.Perm.refl _)⟩
    · intro cache yields replayed
      simp only [State.record, calls, more] at replayed ⊢
      obtain ⟨before, results, order, earlier, listed, rfl, rfl⟩ := replayed.of_drain
      obtain ⟨⟨visited, mirrors⟩, drained⟩ := observed.mirror before results earlier
      obtain ⟨after, same⟩ := mirrors.finish here listed
      exact ⟨⟨[], after⟩, List.rel_append drained (.cons same .nil)⟩

/-- In every undisturbed run the calls have a replay. -/
theorem reachable_observed (reached : (machine π).ReachableWithin Undisturbed s) :
    Observed s := by
  refine Machine.invariant_within Observed observed_init ?_ reached
  intro before action after met observed _ stepped
  exact observed_transition (reachable_sound met.reachable) (reachable_calm met) observed
    (step_transition stepped)

/-- Sums of equal counts are equal in whatever order they are taken. -/
theorem Mirrors.total_drops {cache : FlowKernel.LatestSampleCache π} {visited : List U64}
    (mirrors : Mirrors s cache visited) {order walk : List U64} (same : order.Perm walk) :
    s.cache.total_drops order = cache.get_total_dropped walk := by
  have counts : ∀ total hash, total + (s.cache.slots hash).drop_count =
      total + (cache.slots hash).drop_count := fun total hash => by rw [mirrors.counts hash]
  simp only [LatestSampleCache.total_drops, FlowKernel.LatestSampleCache.get_total_dropped, counts]
  refine same.foldl_eq' (fun left _ right _ total => ?_) 0
  rw [BitVec.add_assoc, BitVec.add_assoc, BitVec.add_comm (cache.slots left).drop_count]

/-- Caches that mirror each other agree in what is observed. -/
theorem Mirrors.agrees {cache : FlowKernel.LatestSampleCache π} {visited : List U64}
    {yields : List (List (U64 × π))} (mirrors : Mirrors s cache visited)
    (drained : List.Forall₂ List.Perm (drains s.log) yields) : Agrees s cache yields where
  keys key := by
    simp only [LatestSampleCache.get_slot, FlowKernel.LatestSampleCache.get_slot_fast, mirrors.keys]
    split <;> rfl
  drained := drained
  drops order walk listed walked :=
    mirrors.total_drops (listed.trans (mirrors.keys ▸ walked.symm))

/-- In every run each frame is in one of its three places. In a run whose puts name their
own slots and stay out of drains, the C++ cache can replay the calls, and every replay
shows its callers the same. -/
theorem mirror_contract (π : Type u) :
    (∀ s, (machine π).Reachable s → Conserved s) ∧
      ∀ s, (machine π).ReachableWithin Undisturbed s →
        (∃ cache yields, Replayed (history s.log) cache yields) ∧
          ∀ cache yields, Replayed (history s.log) cache yields → Agrees s cache yields := by
  refine ⟨fun s reached => reachable_conserved reached, fun s reached => ?_⟩
  have observed := reachable_observed reached
  refine ⟨observed.replay, fun cache yields replayed => ?_⟩
  obtain ⟨⟨visited, mirrors⟩, drained⟩ := observed.mirror cache yields replayed
  exact mirrors.agrees drained

/-- The condition on a run, checked along it. -/
def undisturbed (s : State Bytes) : Action Bytes → State Bytes → Bool
  | .put thread hash _, _ => s.drainer.resting && (s.threads thread).refers == some hash
  | .drain _, _ => s.cache.keys.all fun key => (s.holder key).isNone
  | _, _ => true

/-- What the check accepts meets the condition. -/
theorem undisturbed_of_check (s : State Bytes) (action : Action Bytes) (next : State Bytes)
    (passed : undisturbed s action next = true) : Undisturbed s action := by
  cases action with
  | put thread hash data => simpa [undisturbed, Undisturbed] using passed
  | drain order => simpa [undisturbed, Undisturbed] using passed
  | _ => trivial

/-- A put is under way when the first drain comes by. -/
def skippedRun : List (Action Bytes) :=
  [.pre_allocate 7, .pre_allocate 9, .get_slot 0 7, .put 0 7 [1], .work 0, .work 0, .work 0,
    .put 0 7 [2], .work 0, .drain [7, 9], .visit, .visit, .visit, .work 0, .work 0, .dropRef 0,
    .drain [9, 7], .visit, .visit, .visit]

/-- Two slots, an overwrite, and two drains that nobody disturbs. -/
def drainedRun : List (Action Bytes) :=
  [.pre_allocate 7, .pre_allocate 9, .get_slot 0 7, .get_slot 1 9, .put 0 7 [1], .put 1 9 [3],
    .work 0, .work 1, .work 0, .work 0, .work 1, .work 1, .put 0 7 [2], .work 0, .work 0, .work 0,
    .drain [9, 7], .visit, .visit, .get_slot 2 8, .visit, .drain [7, 9], .visit, .visit, .visit]

/-- A drain that skips a locked slot, and one that nothing disturbs. -/
theorem drainedRun_mirrors :
    (∃ s, (machine Bytes).exec (init Bytes) skippedRun = some s ∧
      drains s.log = [[], [(7, [2])]] ∧ Conserved s) ∧
    ∃ s, (machine Bytes).execWithin undisturbed (init Bytes) drainedRun = some s ∧
      drains s.log = [[(9, [3]), (7, [2])], []] ∧ s.cache.total_drops [7, 9] = 1 ∧
        ∃ cache yields, Replayed (history s.log) cache yields ∧ Agrees s cache yields := by
  have skipped : ((machine Bytes).exec (init Bytes) skippedRun).map (fun s => drains s.log) =
      some [[], [(7, [2])]] := by
    decide +kernel
  have drained : ((machine Bytes).execWithin undisturbed (init Bytes) drainedRun).map
      (fun s => (drains s.log, s.cache.total_drops [7, 9])) =
        some ([[(9, [3]), (7, [2])], []], 1) := by
    decide +kernel
  obtain ⟨first, skipping, nothing⟩ := Option.map_eq_some_iff.mp skipped
  obtain ⟨second, ran, seen⟩ := Option.map_eq_some_iff.mp drained
  rw [Prod.mk.injEq] at seen
  have reached : (machine Bytes).ReachableWithin Undisturbed second :=
    Machine.ReachableWithin.exec (fun s action next _ => undisturbed_of_check s action next)
      .start ran
  obtain ⟨⟨cache, yields, replayed⟩, every⟩ := (mirror_contract Bytes).2 second reached
  refine ⟨⟨first, skipping, nothing, ?_⟩, second, ran, seen.1, seen.2, cache, yields, replayed,
    ?_⟩
  · exact (mirror_contract Bytes).1 first (Machine.reachable_of_exec skipping)
  · exact every cache yields replayed

end FlowKernel.Rust.SharedCache
