import FlowKernel.QueueInvariant

/-!
# Every access of the ring queue keeps its invariant

One lemma for each access of `push`, and two for the accesses of `pop` and of
the destructor: those that leave the items in place and those with which the
front item leaves. Each says how the ghosts move. The step theorem assembles
them, and every reachable state is described.
-/

namespace FlowKernel.MpscQueue

open Foundation RingIndex

universe u
variable {α : Type u} {threads : Nat}
variable {source : Source} {capacity : SizeT} {s after : State threads α}
  {holder : Option (Fin threads)} {front : Nat} {items : List α}

/-- A step of the lock holder that touches nothing shared. -/
theorem move_described {p : Fin threads} {pc : PushPc α}
    (described : Describes source capacity s (some p) front items)
    (running : s.producers p ≠ .idle) (critical : pc.critical = true)
    (reached : Section capacity s front items.length pc) :
    Describes source capacity (s.setProducer p pc) (some p) front items where
  legal := described.legal
  tail_at := described.tail_at
  locked := described.locked
  exclusive := exclusive_stay described.exclusive critical
  section_at := by
    rw [Option.elim_some, setProducer_self]
    exact section_frame reached rfl rfl rfl rfl rfl rfl rfl (Nat.le_refl _)
  consuming := consuming_frame described.consuming rfl rfl rfl rfl (fun _ => rfl) (fun _ => rfl)
  inside := described.inside
  beyond := described.beyond
  quiet := described.quiet_of_running running rfl

/-- A producer takes the free lock. -/
theorem lock_described {p : Fin threads} {item : α}
    (described : Describes source capacity s holder front items)
    (running : s.producers p = .lock item) (free : s.push_lock = false) :
    Describes source capacity ({ s with push_lock := true }.setProducer p (.loadTail item))
      (some p) front items := by
  obtain rfl : holder = none := by simpa [free] using described.locked
  have busy : s.producers p ≠ .idle := by simp [running]
  have here : Settled s ∧ s.dropped = BitVec.ofNat 64 (fulls s.history) := described.section_at
  exact
    { legal := described.legal
      tail_at := described.tail_at
      locked := rfl
      exclusive := exclusive_update (by simp [PushPc.critical]) (fun q different => by
        rw [described.exclusive q]
        simp [Ne.symm different])
      section_at := by
        rw [Option.elim_some, setProducer_self]
        exact ⟨⟨here.1.back, here.1.built⟩, here.2⟩
      consuming := consuming_frame described.consuming rfl rfl rfl rfl (fun _ => rfl) (fun _ => rfl)
      inside := described.inside
      beyond := described.beyond
      quiet := described.quiet_of_running busy rfl }

/-- A producer finds the ring full. -/
theorem full_described (power : PowerOfTwo capacity) {p : Fin threads} {item : α} {t : SizeT}
    (described : Describes source capacity s holder front items)
    (running : s.producers p = .loadHead item t)
    (full : (t + 1) &&& (capacity - 1) = s.head) :
    Describes source capacity ((s.setProducer p .countDrop).log (.full p)) holder front items := by
  have busy : s.producers p ≠ .idle := by simp [running]
  have alive : s.dropping = false := described.active busy
  obtain ⟨rfl, rfl, settled, counted⟩ := described.holds running rfl
  have held : items.length = capacity.toNat - 1 := by
    have := (described.full_test power alive).mp full
    omega
  exact
    { legal := by
        rw [State.log, operations_snoc]
        exact described.legal.snoc (.reject held)
      tail_at := described.tail_at
      locked := described.locked
      exclusive := exclusive_stay described.exclusive rfl
      section_at := by
        simp only [State.log, Option.elim_some, setProducer_self]
        refine ⟨⟨settled.back, ?_⟩, ?_⟩
        · simpa [State.setProducer, accepted, constructed] using settled.built
        · rw [fulls_snoc]
          simp only [State.setProducer, counted, fulls, List.countP_singleton, if_true]
          exact (BitVec.ofNat_add _ _).symm
      consuming := consuming_frame described.consuming rfl rfl
        (by simp [State.log, State.setProducer, left])
        (by simp [State.log, State.setProducer, destroyed]) (fun _ => rfl) (fun _ => rfl)
      inside := described.inside
      beyond := described.beyond
      quiet := described.quiet_of_running busy rfl }

/-- The lock is released once the back of the ring is settled again. -/
theorem release_described {p : Fin threads} {pushed : Bool}
    (described : Describes source capacity s (some p) front items)
    (running : s.producers p ≠ .idle)
    (settled : Settled s) (counted : s.dropped = BitVec.ofNat 64 (fulls s.history)) :
    Describes source capacity
      (({ s with push_lock := false }.setProducer p .idle).log (.returned p pushed))
      none front items where
  legal := by simpa [State.log, State.setProducer, operations] using described.legal
  tail_at := described.tail_at
  locked := rfl
  exclusive := exclusive_update (by simp [PushPc.critical]) (fun q different => by
    rw [described.exclusive q]
    simp [Ne.symm different])
  section_at := by
    refine ⟨⟨settled.back, ?_⟩, ?_⟩
    · simpa [State.log, State.setProducer, accepted, constructed] using settled.built
    · simpa [State.log, State.setProducer, fulls] using counted
  consuming := consuming_frame described.consuming rfl rfl
    (by simp [State.log, State.setProducer, left])
    (by simp [State.log, State.setProducer, destroyed]) (fun _ => rfl) (fun _ => rfl)
  inside := described.inside
  beyond := described.beyond
  quiet := described.quiet_of_running running rfl

/-- A producer builds its item behind the others. -/
theorem construct_described (power : PowerOfTwo capacity) {p : Fin threads} {item : α}
    {next : SizeT} (described : Describes source capacity s (some p) front items)
    (running : s.producers p ≠ .idle)
    (next_at : next = cell capacity (front + items.length + 1))
    (room : items.length + 1 < capacity.toNat) (settled : Settled s)
    (counted : s.dropped = BitVec.ofNat 64 (fulls s.history)) :
    Describes source capacity
      (((s.setSlot s.tail (.live item)).setProducer p (.storeTail item next)).log
        (.constructed item)) (some p) front items := by
  have elsewhere : ∀ offset, offset < capacity.toNat → offset ≠ items.length →
      Function.update s.buffer s.tail (.live item) (cell capacity (front + offset)) =
        s.buffer (cell capacity (front + offset)) := by
    intro offset inside different
    apply Function.update_of_ne
    rw [described.tail_at]
    exact offsets_distinct power inside (by omega) different
  exact
    { legal := by
        simpa [State.log, State.setProducer, State.setSlot, operations] using described.legal
      tail_at := described.tail_at
      locked := described.locked
      exclusive := exclusive_stay described.exclusive rfl
      section_at := by
        simp only [State.log, Option.elim_some, setProducer_self]
        refine ⟨next_at, room, ?_, ?_, ?_⟩
        · simp [State.setProducer, State.setSlot]
        · have built := settled.built
          simp_all [State.setProducer, State.setSlot, accepted, constructed]
        · simpa [State.setProducer, State.setSlot, fulls] using counted
      consuming := consuming_frame described.consuming rfl rfl
        (by simp [State.log, State.setProducer, State.setSlot, left])
        (by simp [State.log, State.setProducer, State.setSlot, destroyed]) (fun _ => rfl)
        (fun nonempty => by
          have positive : items.length ≠ 0 := by simpa using nonempty
          exact elsewhere 0 (by omega) (Ne.symm positive))
      inside := by
        intro offset found positive present
        have within : offset < items.length := (List.getElem?_eq_some_iff.mp present).1
        exact (elsewhere offset (by omega) (by omega)).trans
          (described.inside offset found positive present)
      beyond := by
        intro offset past within
        exact (elsewhere offset within (by omega)).trans (described.beyond offset past within)
      quiet := described.quiet_of_running running rfl }

/-- With the store of the tail the item is accepted. -/
theorem storeTail_described {p : Fin threads} {item : α}
    {next : SizeT} (described : Describes source capacity s (some p) front items)
    (running : s.producers p ≠ .idle)
    (next_at : next = cell capacity (front + items.length + 1))
    (room : items.length + 1 < capacity.toNat) (back : s.buffer s.tail = .live item)
    (built : constructed s.history = accepted s.history ++ [item])
    (counted : s.dropped = BitVec.ofNat 64 (fulls s.history)) :
    Describes source capacity
      (({ s with tail := next }.setProducer p .unlock).log (.accepted p item))
      (some p) front (items ++ [item]) := by
  have alive : s.dropping = false := described.active running
  have back_at : s.buffer (cell capacity (front + items.length)) = .live item := by
    rw [← described.tail_at]
    exact back
  have live : FrontLive capacity s front items → FrontLive capacity
      (({ s with tail := next }.setProducer p .unlock).log (.accepted p item)) front
      (items ++ [item]) := by
    intro alive found present
    cases items with
    | nil =>
      obtain rfl : item = found := by simpa using present
      exact back_at
    | cons first rest => exact alive found (by simpa using present)
  exact
    { legal := by
        rw [State.log, operations_snoc]
        exact described.legal.snoc (.accept (by omega))
      tail_at := by
        simp only [State.log, State.setProducer, List.length_append, List.length_singleton]
        rw [next_at, Nat.add_assoc]
      locked := described.locked
      exclusive := exclusive_stay described.exclusive rfl
      section_at := by
        simp only [State.log, Option.elim_some, setProducer_self]
        refine ⟨⟨?_, ?_⟩, ?_⟩
        · simp only [State.setProducer, next_at, Nat.add_assoc]
          exact described.beyond (items.length + 1) (by omega) room
        · simp_all [State.setProducer, accepted, constructed]
        · simpa [State.setProducer, fulls] using counted
      consuming := consuming_grow described.consuming rfl rfl
        (by simp [State.log, State.setProducer, left])
        (by simp [State.log, State.setProducer, destroyed])
        (fun dropping => by simp [alive] at dropping)
        (fun found present => ⟨by
          rw [List.getElem?_append_left (List.getElem?_eq_some_iff.mp present).1]
          exact present, rfl⟩)
        live (fun dropping => by simp [alive] at dropping)
      inside := by
        intro offset found positive present
        by_cases within : offset < items.length
        · rw [List.getElem?_append_left within] at present
          exact described.inside offset found positive present
        · have last : offset = items.length := by
            have := (List.getElem?_eq_some_iff.mp present).1
            simp at this
            omega
          subst last
          simp at present
          exact present ▸ back_at
      beyond := by
        intro offset past within
        rw [List.length_append, List.length_singleton] at past
        exact described.beyond offset (by omega) within
      quiet := described.quiet_of_running running rfl }

/-- A refused push counts and gives the lock up. -/
theorem countDrop_described {p : Fin threads}
    (described : Describes source capacity s (some p) front items)
    (running : s.producers p ≠ .idle) (settled : Settled s)
    (counted : s.dropped + 1 = BitVec.ofNat 64 (fulls s.history)) :
    Describes source capacity ({ s with dropped := s.dropped + 1 }.setProducer p .unlockFull)
      (some p) front items where
  legal := described.legal
  tail_at := described.tail_at
  locked := described.locked
  exclusive := exclusive_stay described.exclusive rfl
  section_at := by
    rw [Option.elim_some, setProducer_self]
    exact ⟨⟨settled.back, settled.built⟩, counted⟩
  consuming := consuming_frame described.consuming rfl rfl rfl rfl (fun _ => rfl) (fun _ => rfl)
  inside := described.inside
  beyond := described.beyond
  quiet := described.quiet_of_running running rfl

/-- Every access of a push keeps the description; the front is untouched. -/
theorem push_preserves (power : PowerOfTwo capacity) {p : Fin threads}
    (described : Describes source capacity s holder front items)
    (stepped : pushStep capacity s p = some after) :
    ∃ holder items, Describes source capacity after holder front items := by
  cases pc : s.producers p with
  | idle => simp [pushStep, pc] at stepped
  | lock item =>
    cases free : s.push_lock with
    | true =>
      obtain rfl : s = after := by simpa [pushStep, pc, free] using stepped
      exact ⟨holder, items, described⟩
    | false =>
      obtain rfl : _ = after := by simpa [pushStep, pc, free] using stepped
      exact ⟨_, _, lock_described described pc free⟩
  | loadTail item =>
    obtain rfl : _ = after := by simpa [pushStep, pc] using stepped
    obtain ⟨rfl, here⟩ := described.holds pc rfl
    exact ⟨_, _, move_described described (by simp [pc]) rfl ⟨rfl, here⟩⟩
  | loadHead item t =>
    by_cases full : (t + 1) &&& (capacity - 1) = s.head
    · simp only [pushStep, pc, if_pos full, Option.some.injEq] at stepped
      subst stepped
      exact ⟨_, _, full_described power described pc full⟩
    · simp only [pushStep, pc, if_neg full, Option.some.injEq] at stepped
      subst stepped
      obtain ⟨rfl, rfl, settled, counted⟩ := described.holds pc rfl
      have busy : s.producers p ≠ .idle := by simp [pc]
      have alive : s.dropping = false := described.active busy
      have held : items.length < capacity.toNat := described.bounded power
      have room : items.length + 1 < capacity.toNat := by
        have roomy := mt (described.full_test power alive).mpr full
        omega
      have next_at : (s.tail + 1) &&& (capacity - 1) =
          cell capacity (front + items.length + 1) := by
        rw [described.tail_at, masked_cell power]
      exact ⟨_, _, move_described described (by simp [pc]) rfl
        ⟨rfl, next_at, room, settled, counted⟩⟩
  | countDrop =>
    obtain rfl : _ = after := by simpa [pushStep, pc] using stepped
    obtain ⟨rfl, settled, counted⟩ := described.holds pc rfl
    exact ⟨_, _, countDrop_described described (by simp [pc]) settled counted⟩
  | unlockFull =>
    obtain rfl : _ = after := by simpa [pushStep, pc] using stepped
    obtain ⟨rfl, settled, counted⟩ := described.holds pc rfl
    exact ⟨_, _, release_described described (by simp [pc]) settled counted⟩
  | construct item t next =>
    obtain rfl : _ = after := by simpa [pushStep, pc] using stepped
    obtain ⟨rfl, rfl, next_at, room, settled, counted⟩ := described.holds pc rfl
    exact ⟨_, _, construct_described power described (by simp [pc]) next_at room settled counted⟩
  | storeTail item next =>
    obtain rfl : _ = after := by simpa [pushStep, pc] using stepped
    obtain ⟨rfl, next_at, room, back, built, counted⟩ := described.holds pc rfl
    exact ⟨_, _, storeTail_described described (by simp [pc]) next_at room back built counted⟩
  | unlock =>
    obtain rfl : _ = after := by simpa [pushStep, pc] using stepped
    obtain ⟨rfl, settled, counted⟩ := described.holds pc rfl
    exact ⟨_, _, release_described described (by simp [pc]) settled counted⟩

/-- What a consumer's or the destructor's access leaves alone: everything of the
producers, and every cell but the front one. -/
structure Spares (capacity : SizeT) (s after : State threads α) (front : Nat) : Prop where
  producers : after.producers = s.producers
  push_lock : after.push_lock = s.push_lock
  tail : after.tail = s.tail
  dropped : after.dropped = s.dropped
  dropping : after.dropping = s.dropping
  cells : ∀ index, index ≠ cell capacity front → after.buffer index = s.buffer index
  accepted : accepted after.history = accepted s.history
  constructed : constructed after.history = constructed s.history
  fulls : fulls after.history = fulls s.history

/-- A consumer's access that takes no item out of the queue yet. The front cell
may change only while the front item occupies it. -/
theorem spare_described (power : PowerOfTwo capacity)
    (described : Describes source capacity s holder front items)
    (spares : Spares capacity s after front)
    (occupied : items ≠ [] ∨ after.buffer = s.buffer)
    (legal : BoundedFifo.Legal (capacity.toNat - 1) (operations after.history) items)
    (consuming : Consuming source capacity after front items after.consumer) :
    Describes source capacity after holder front items := by
  have held : items.length < capacity.toNat := described.bounded power
  have elsewhere : ∀ offset, offset < capacity.toNat → offset ≠ 0 →
      after.buffer (cell capacity (front + offset)) = s.buffer (cell capacity (front + offset)) := by
    intro offset inside different
    exact spares.cells _ (offsets_distinct power inside power.pos different)
  have back : after.buffer s.tail = s.buffer s.tail := by
    rcases occupied with nonempty | same
    · rw [described.tail_at]
      exact elsewhere items.length held (by simpa using nonempty)
    · rw [same]
  exact
    { legal := legal
      tail_at := spares.tail.trans described.tail_at
      locked := spares.push_lock.trans described.locked
      exclusive := by
        rw [spares.producers]
        exact described.exclusive
      section_at := by
        rw [spares.producers]
        exact section_frame described.section_at spares.tail spares.dropped back
          spares.accepted spares.constructed spares.fulls rfl (Nat.le_refl _)
      consuming := consuming
      inside := by
        intro offset item positive present
        have within : offset < items.length := (List.getElem?_eq_some_iff.mp present).1
        exact (elsewhere offset (by omega) (by omega)).trans
          (described.inside offset item positive present)
      beyond := by
        intro offset past within
        exact (elsewhere offset within (by omega)).trans (described.beyond offset past within)
      quiet := by
        rw [spares.dropping, spares.producers]
        exact described.quiet }

/-- The front item leaves and its raw cell becomes the last of the window. -/
theorem leave_described (power : PowerOfTwo capacity) {item : α} {rest : List α}
    (described : Describes source capacity s holder front (item :: rest))
    (spares : Spares capacity s after front)
    (raw : after.buffer (cell capacity front) = .raw)
    (leaves : operations after.history = operations s.history ++ [.take item])
    (consuming : Consuming source capacity after (front + 1) rest after.consumer) :
    Describes source capacity after holder (front + 1) rest := by
  have held : rest.length + 1 < capacity.toNat := described.bounded power
  have elsewhere : ∀ offset, offset < capacity.toNat → offset ≠ 0 →
      after.buffer (cell capacity (front + offset)) = s.buffer (cell capacity (front + offset)) := by
    intro offset inside different
    exact spares.cells _ (offsets_distinct power inside power.pos different)
  have shifted : ∀ offset, front + 1 + offset = front + (offset + 1) := by omega
  exact
    { legal := by
        rw [leaves]
        exact described.legal.snoc .take
      tail_at := by
        rw [spares.tail, described.tail_at, shifted]
        rfl
      locked := spares.push_lock.trans described.locked
      exclusive := by
        rw [spares.producers]
        exact described.exclusive
      section_at := by
        rw [spares.producers]
        refine section_frame described.section_at spares.tail spares.dropped ?_
          spares.accepted spares.constructed spares.fulls (by simp only [List.length_cons]; omega)
          (by simp only [List.length_cons]; omega)
        rw [described.tail_at]
        exact elsewhere (rest.length + 1) held (by omega)
      consuming := consuming
      inside := by
        intro offset found positive present
        have within : offset < rest.length := (List.getElem?_eq_some_iff.mp present).1
        rw [shifted, elsewhere (offset + 1) (by omega) (by omega)]
        exact described.inside (offset + 1) found (by omega) (by simpa using present)
      beyond := by
        intro offset past within
        rw [shifted]
        by_cases last : offset + 1 = capacity.toNat
        · rw [last, cell_add_capacity]
          exact raw
        · rw [elsewhere (offset + 1) (by omega) (by omega)]
          exact described.beyond (offset + 1) (by simp only [List.length_cons]; omega) (by omega)
      quiet := by
        rw [spares.dropping, spares.producers]
        exact described.quiet }

/-- An access that only moves the consumer's program counter. -/
theorem advance_described (power : PowerOfTwo capacity) {pc : PopPc α}
    (described : Describes source capacity s holder front items)
    (consuming : Consuming source capacity s front items pc) :
    Describes source capacity { s with consumer := pc } holder front items :=
  spare_described power described ⟨rfl, rfl, rfl, rfl, rfl, fun _ _ => rfl, rfl, rfl, rfl⟩
    (.inr rfl) described.legal
    (consuming_frame consuming rfl rfl rfl rfl (fun _ => rfl) (fun _ => rfl))

/-- The consumer compares its head with the tail. -/
theorem popLoadTail_preserves (power : PowerOfTwo capacity) {h : SizeT}
    (described : Describes source capacity s holder front items)
    (running : s.consumer = .loadTail h) (stepped : popStep source capacity s = some after) :
    Describes source capacity after holder front items := by
  have here := described.consuming
  simp only [running, Consuming] at here
  obtain ⟨at_front, rfl, live, rust, ended⟩ := here
  have empty := described.empty_test power
  rw [← at_front] at empty
  by_cases same : s.head = s.tail
  · obtain rfl : items = [] := empty.mp same
    by_cases dropping : s.dropping = true
    · simp only [popStep, running, if_pos same, if_pos dropping, Option.some.injEq] at stepped
      subst stepped
      exact advance_described power described ⟨rfl, dropping, ended⟩
    · simp only [popStep, running, if_pos same, if_neg dropping, Option.some.injEq] at stepped
      subst stepped
      refine spare_described power described
        ⟨rfl, rfl, rfl, rfl, rfl, fun _ _ => rfl, ?_, ?_, ?_⟩ (.inr rfl) ?_ ?_
      · simp [State.log, accepted]
      · simp [State.log, constructed]
      · simp [State.log, fulls]
      · rw [State.log, operations_snoc]
        exact described.legal.snoc .miss
      · refine ⟨at_front, live, rust, ?_⟩
        simpa [State.log, destroyed, left] using ended
  · simp only [popStep, running, if_neg same, Option.some.injEq] at stepped
    subst stepped
    exact advance_described power described ⟨at_front, rfl, live, mt empty.mpr same, rust, ended⟩

/-- The consumer moves the front item out. -/
theorem moveOut_preserves (power : PowerOfTwo capacity) {h : SizeT}
    (described : Describes source capacity s holder front items)
    (running : s.consumer = .moveOut h) (stepped : popStep source capacity s = some after) :
    Describes source capacity after holder front items := by
  have here := described.consuming
  simp only [running, Consuming] at here
  obtain ⟨at_front, rfl, live, nonempty, rust, ended⟩ := here
  obtain ⟨item, rest, rfl⟩ := List.exists_cons_of_ne_nil nonempty
  have alive : s.buffer s.head = .live item := by
    rw [at_front]
    exact live item rfl
  have cells : ∀ slot index, index ≠ cell capacity front →
      Function.update s.buffer s.head slot index = s.buffer index := by
    intro slot index different
    rw [at_front]
    exact Function.update_of_ne different _ _
  cases source with
  | cpp =>
    simp only [popStep, running, alive, Option.some.injEq] at stepped
    subst stepped
    have begun : s.dropping = false := by
      cases dropping : s.dropping with
      | false => rfl
      | true => exact absurd (rust dropping) (by decide)
    exact spare_described power described ⟨rfl, rfl, rfl, rfl, rfl, cells _, rfl, rfl, rfl⟩
      (.inl nonempty) described.legal
      ⟨at_front, rfl, rfl, by simp [State.setSlot], rfl, begun, ended rfl⟩
  | rust =>
    simp only [popStep, running, alive, Option.some.injEq] at stepped
    subst stepped
    exact spare_described power described ⟨rfl, rfl, rfl, rfl, rfl, cells _, rfl, rfl, rfl⟩
      (.inl nonempty) described.legal
      ⟨at_front, rfl, rfl, by simp [State.setSlot], fun impossible => by cases impossible⟩

/-- The consumer destroys what it has moved from. -/
theorem destroy_preserves (power : PowerOfTwo capacity) {h : SizeT} {item : α}
    (described : Describes source capacity s holder front items)
    (running : s.consumer = .destroy h item) (stepped : popStep source capacity s = some after) :
    Describes source capacity after holder front items := by
  have here := described.consuming
  simp only [running, Consuming] at here
  obtain ⟨at_front, rfl, present, moved, rfl, begun, ended⟩ := here
  simp only [popStep, running, moved, Option.some.injEq] at stepped
  subst stepped
  have nonempty : items ≠ [] := by
    rintro rfl
    simp at present
  refine spare_described power described
    ⟨rfl, rfl, rfl, rfl, rfl, ?_, ?_, ?_, ?_⟩ (.inl nonempty) ?_ ?_
  · intro index different
    rw [← at_front] at different
    simp [State.log, State.setSlot, different]
  · simp [State.log, State.setSlot, accepted]
  · simp [State.log, State.setSlot, constructed]
  · simp [State.log, State.setSlot, fulls]
  · simpa [State.log, State.setSlot, operations] using described.legal
  · refine ⟨at_front, rfl, present, by simp [State.log, State.setSlot], fun _ => ⟨begun, ?_⟩⟩
    simpa [State.log, State.setSlot, destroyed, left] using ended

/-- With the store of the head the front item has left. -/
theorem storeHead_preserves (power : PowerOfTwo capacity) {h : SizeT} {item : α}
    (described : Describes source capacity s holder front items)
    (running : s.consumer = .storeHead h item)
    (stepped : popStep source capacity s = some after) :
    ∃ rest, items = item :: rest ∧ Describes source capacity after holder (front + 1) rest := by
  have here := described.consuming
  simp only [running, Consuming] at here
  obtain ⟨at_front, rfl, present, raw, ended⟩ := here
  simp only [popStep, running, Option.some.injEq] at stepped
  subst stepped
  cases items with
  | nil => simp at present
  | cons first rest =>
    obtain rfl : first = item := by simpa using present
    have next : (s.head + 1) &&& (capacity - 1) = cell capacity (front + 1) := by
      rw [at_front, masked_cell power]
    refine ⟨rest, rfl, leave_described power described
      ⟨rfl, rfl, rfl, rfl, rfl, fun _ _ => rfl, ?_, ?_, ?_⟩ ?_ ?_ ?_⟩
    · cases s.dropping <;> simp [State.log, accepted]
    · cases s.dropping <;> simp [State.log, constructed]
    · cases s.dropping <;> simp [State.log, fulls]
    · rw [← at_front]
      exact raw
    · cases s.dropping <;> simp [State.log, operations]
    · refine ⟨next, ?_, ?_, ?_⟩
      · intro found second
        exact described.inside 1 found (by decide) (by simpa using second)
      · intro dropping
        have begun : s.dropping = true := dropping
        cases source with
        | cpp => simp [(ended rfl).1] at begun
        | rust => rfl
      · intro cpp
        obtain ⟨begun, objects⟩ := ended cpp
        simpa [State.log, begun, destroyed, left] using objects

/-- The destructor's loop ends with the queue empty, or ends the front item. -/
theorem dtorLoop_preserves (power : PowerOfTwo capacity) {h t : SizeT}
    (described : Describes source capacity s holder front items)
    (running : s.consumer = .dtorLoop h t) (stepped : popStep source capacity s = some after) :
    (items = [] ∧ after.consumer = .gone ∧ Describes source capacity after holder front items) ∨
      ∃ item rest, items = item :: rest ∧
        Describes source capacity after holder (front + 1) rest := by
  have here := described.consuming
  simp only [running, Consuming] at here
  obtain ⟨rfl, rfl, live, begun, ended⟩ := here
  have empty := described.empty_test power
  by_cases same : cell capacity front = s.tail
  · simp only [popStep, running, if_pos same, Option.some.injEq] at stepped
    subst stepped
    exact .inl ⟨empty.mp same, rfl,
      advance_described power described ⟨empty.mp same, begun, fun _ => ended⟩⟩
  · obtain ⟨item, rest, rfl⟩ := List.exists_cons_of_ne_nil (mt empty.mpr same)
    have alive : s.buffer (cell capacity front) = .live item := live item rfl
    simp only [popStep, running, if_neg same, alive, Option.some.injEq] at stepped
    subst stepped
    refine .inr ⟨item, rest, rfl, leave_described power described
      ⟨rfl, rfl, rfl, rfl, rfl, ?_, ?_, ?_, ?_⟩ ?_ ?_ ?_⟩
    · intro index different
      simp [State.log, State.setSlot, different]
    · simp [State.log, State.setSlot, accepted]
    · simp [State.log, State.setSlot, constructed]
    · simp [State.log, State.setSlot, fulls]
    · simp [State.log, State.setSlot]
    · simp [State.log, State.setSlot, operations]
    · refine ⟨masked_cell power front, rfl, ?_, begun, ?_⟩
      · intro found second
        have apart : cell capacity (front + 1) ≠ cell capacity front := by
          have held : (item :: rest).length < capacity.toNat := described.bounded power
          have within : 0 < rest.length := (List.getElem?_eq_some_iff.mp second).1
          rw [List.length_cons] at held
          have second_inside : 1 < capacity.toNat := by omega
          exact offsets_distinct power second_inside power.pos (by decide)
        simp only [State.log, State.setSlot]
        rw [Function.update_of_ne apart]
        exact described.inside 1 found (by decide) (by simpa using second)
      · simpa [State.log, State.setSlot, destroyed, left] using ended

/-- Every access of a pop and of the destructor keeps the description. -/
theorem pop_preserves (power : PowerOfTwo capacity)
    (described : Describes source capacity s holder front items)
    (stepped : popStep source capacity s = some after) :
    ∃ front items, Describes source capacity after holder front items := by
  cases running : s.consumer with
  | idle => simp [popStep, running] at stepped
  | loadTail h => exact ⟨_, _, popLoadTail_preserves power described running stepped⟩
  | moveOut h => exact ⟨_, _, moveOut_preserves power described running stepped⟩
  | destroy h item => exact ⟨_, _, destroy_preserves power described running stepped⟩
  | storeHead h item =>
    obtain ⟨rest, _, next⟩ := storeHead_preserves power described running stepped
    exact ⟨_, _, next⟩
  | dtorLoadTail h =>
    have here := described.consuming
    simp only [running, Consuming] at here
    obtain ⟨rfl, live, begun, ended⟩ := here
    simp only [popStep, running, Option.some.injEq] at stepped
    subst stepped
    exact ⟨_, _, advance_described power described ⟨rfl, rfl, live, begun, ended⟩⟩
  | dtorLoop h t =>
    rcases dtorLoop_preserves power described running stepped with
      ⟨_, _, next⟩ | ⟨_, _, _, next⟩
    · exact ⟨_, _, next⟩
    · exact ⟨_, _, next⟩
  | gone => simp [popStep, running] at stepped

/-- A call begins by waiting for the lock. -/
theorem call_described {p : Fin threads} {item : α}
    (described : Describes source capacity s holder front items)
    (idle : s.producers p = .idle) (alive : s.dropping = false) :
    Describes source capacity ((s.setProducer p (.lock item)).log (.called p item))
      holder front items := by
  have outside : (s.producers p).critical = false := by simp [idle, PushPc.critical]
  have other : holder ≠ some p := by
    intro held
    have inside := (described.exclusive p).mpr held
    simp [outside] at inside
  have elsewhere : holder.elim .idle (Function.update s.producers p (.lock item)) =
      holder.elim .idle s.producers := by
    cases holder with
    | none => rfl
    | some q =>
      have different : q ≠ p := fun same => other (congrArg some same)
      simp [different]
  exact
    { legal := by simpa [State.log, State.setProducer, operations] using described.legal
      tail_at := described.tail_at
      locked := described.locked
      exclusive := exclusive_update (by simp [PushPc.critical, other])
        (fun q _ => described.exclusive q)
      section_at := by
        simp only [State.log, State.setProducer, elsewhere]
        exact section_frame described.section_at rfl rfl rfl (by simp [accepted])
          (by simp [constructed]) (by simp [fulls]) rfl (Nat.le_refl _)
      consuming := consuming_frame described.consuming rfl rfl
        (by simp [State.log, State.setProducer, left])
        (by simp [State.log, State.setProducer, destroyed]) (fun _ => rfl) (fun _ => rfl)
      inside := described.inside
      beyond := described.beyond
      quiet := by
        intro dropping
        have begun : s.dropping = true := dropping
        simp [alive] at begun }

/-- The destructor begins with every thread idle, and no producer runs after it. -/
theorem destruct_described (described : Describes source capacity s holder front items)
    (idle : s.consumer = .idle) (quiet : ∀ p, s.producers p = .idle) :
    Describes source capacity
      { s with dropping := true, consumer := destructorPc source s.head } holder front items := by
  have here := described.consuming
  simp only [idle, Consuming] at here
  exact
    { legal := described.legal
      tail_at := described.tail_at
      locked := described.locked
      exclusive := described.exclusive
      section_at := section_frame described.section_at rfl rfl rfl rfl rfl rfl rfl
        (Nat.le_refl _)
      consuming := by
        cases source with
        | cpp => exact ⟨here.1, here.2.1, rfl, here.2.2.2 rfl⟩
        | rust => exact ⟨here.1, rfl, here.2.1, fun _ => rfl, here.2.2.2⟩
      inside := described.inside
      beyond := described.beyond
      quiet := fun _ => quiet }

/-- The empty ring holds nothing. -/
theorem init_described : Describes source capacity (init threads α) none 0 [] where
  legal := .nil
  tail_at := (cell_zero capacity).symm
  locked := rfl
  exclusive := by simp [init, PushPc.critical]
  section_at := ⟨⟨rfl, rfl⟩, rfl⟩
  consuming := ⟨(cell_zero capacity).symm, by simp [FrontLive], by simp [init], fun _ => rfl⟩
  inside := by simp
  beyond := by simp [init]
  quiet := by simp [init]

/-- Every step keeps the description, with the ghosts moved along. -/
theorem step_preserves (power : PowerOfTwo capacity) {action : Action threads α}
    (described : Describes source capacity s holder front items)
    (stepped : step source capacity s action = some after) :
    ∃ holder front items, Describes source capacity after holder front items := by
  cases action with
  | push p item =>
    simp only [step] at stepped
    split at stepped
    case h_1 idle alive =>
      obtain rfl := Option.some.inj stepped
      exact ⟨_, _, _, call_described described idle alive⟩
    case h_2 => simp at stepped
  | producer p =>
    obtain ⟨_, _, next⟩ := push_preserves power described stepped
    exact ⟨_, _, _, next⟩
  | pop =>
    have here := described.consuming
    simp only [step] at stepped
    split at stepped
    case h_3 => simp at stepped
    all_goals
      rename_i idle begun
      obtain rfl := Option.some.inj stepped
      simp only [idle, Consuming] at here
      exact ⟨_, _, _, advance_described power described
        ⟨here.1, rfl, here.2.1, by simp [begun], here.2.2.2⟩⟩
  | consumer =>
    obtain ⟨_, _, next⟩ := pop_preserves power described stepped
    exact ⟨_, _, _, next⟩
  | destruct =>
    simp only [step] at stepped
    split at stepped
    case h_2 => simp at stepped
    case h_1 idle alive =>
      split at stepped
      case isFalse => simp at stepped
      case isTrue finished =>
        obtain rfl := Option.some.inj stepped
        have quiet : ∀ p, s.producers p = .idle := by
          intro p
          have matched := finished p
          split at matched
          · assumption
          · simp at matched
        exact ⟨_, _, _, destruct_described described idle quiet⟩

/-- In every run the ring holds what its history leaves in it. -/
theorem reachable_described (power : PowerOfTwo capacity)
    (reached : (machine source capacity threads α).Reachable s) :
    ∃ holder front items, Describes source capacity s holder front items := by
  refine Machine.invariant
    (fun s => ∃ holder front items, Describes source capacity s holder front items)
    ⟨none, 0, [], init_described⟩ ?_ reached
  rintro before action after _ ⟨holder, front, items, described⟩ stepped
  exact step_preserves power described stepped

end FlowKernel.MpscQueue
