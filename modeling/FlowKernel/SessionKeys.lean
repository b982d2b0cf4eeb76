import FlowKernel.Reactor

/-!
# The session a key is booked on

`zenoh_data_callback` takes the robot of a frame from its key: everything before the slash
that `find('/', 6)` returns. The search starts behind the six bytes of `robot/`, so what it
finds is the second slash exactly for the keys whose first slash comes before byte six and
whose second slash does not.
-/

namespace FlowKernel.SessionKeys

open Reactor (robot_id seenSession)

/-- The chunks between the slashes. -/
def chunks (key : Bytes) : List Bytes :=
  key.splitOn 47

/-- A key expression without empty chunks. -/
def ValidKey (key : Bytes) : Prop :=
  ∀ chunk ∈ chunks key, chunk ≠ []

/-- A key can be checked byte by byte. -/
instance (key : Bytes) : Decidable (ValidKey key) :=
  inferInstanceAs (Decidable (∀ chunk ∈ chunks key, chunk ≠ []))

/-- The key up to its second slash, which takes three chunks. -/
def robotPrefix (key : Bytes) : Option Bytes :=
  match chunks key with
  | first :: second :: _ :: _ => some (first ++ 47 :: second)
  | _ => none

/-- A frame is booked on the session of the first two chunks of its key, and on none if there
are fewer than three. -/
def Tracked (key : Bytes) : Prop :=
  ∀ sessions now robot, seenSession sessions key now robot =
    if robotPrefix key = some robot then some now else sessions robot

/-- The first slash, if any, comes before byte six, and the second one, if any, does not. -/
def SixBetween (key : Bytes) : Prop :=
  match chunks key with
  | first :: second :: rest => first.length < 6 ∧ (rest ≠ [] → 6 ≤ first.length + 1 + second.length)
  | _ => True

/-- `std::string_view::find`, from a position on. -/
def find (key : Bytes) (pos : Nat) : Option Nat :=
  ((key.drop pos).idxOf? 47).map (pos + ·)

/-- The robot is what stands before the slash that is found. -/
theorem robot_id_eq (key : Bytes) : robot_id key = (find key 6).map key.take := by
  unfold robot_id find
  split
  · rw [Option.map_map]
    rfl
  next empty =>
    obtain rfl := List.length_eq_zero_iff.mp (Nat.eq_zero_of_not_pos empty)
    rfl

/-- A key has one chunk, or a first chunk in front of a slash. -/
theorem chunks_cases (key : Bytes) : (47 ∉ key ∧ chunks key = [key]) ∨
    ∃ first rest, 47 ∉ first ∧ key = first ++ 47 :: rest ∧ chunks key = first :: chunks rest := by
  by_cases slash : 47 ∈ key
  · right
    obtain ⟨first, rest, rfl, fresh⟩ := List.eq_append_cons_of_mem slash
    refine ⟨first, rest, fresh, rfl, ?_⟩
    apply List.splitOnP_append_cons_of_forall_mem
    · intro byte member
      simpa using fun same : byte = 47 => fresh (same ▸ member)
    · rfl
  · left
    refine ⟨slash, ?_⟩
    apply List.splitOnP_eq_singleton
    intro byte member
    simpa using fun same : byte = 47 => slash (same ▸ member)

/-- The first slash is behind what has none. -/
theorem idxOf?_append_cons {first rest : Bytes} (fresh : 47 ∉ first) :
    (first ++ 47 :: rest).idxOf? 47 = some first.length := by
  induction first with
  | nil => simp [List.idxOf?_cons]
  | cons byte first inductionHypothesis =>
    obtain ⟨other, later⟩ := not_or.mp (List.mem_cons.not.mp fresh)
    simp [List.idxOf?_cons, Ne.symm other, inductionHypothesis later]

/-- Without a slash nothing is found. -/
theorem find_none {key : Bytes} (fresh : 47 ∉ key) (pos : Nat) : find key pos = none := by
  unfold find
  rw [Option.map_eq_none_iff, List.idxOf?_eq_none_iff]
  exact fun later => fresh (List.mem_of_mem_drop later)

/-- A slash at or behind the position is found first. -/
theorem find_here {first rest : Bytes} (fresh : 47 ∉ first) {pos : Nat}
    (before : pos ≤ first.length) : find (first ++ 47 :: rest) pos = some first.length := by
  unfold find
  rw [List.drop_append_of_le_length before,
    idxOf?_append_cons fun later => fresh (List.mem_of_mem_drop later), List.length_drop,
    Option.map_some, Nat.add_sub_cancel' before]

/-- A slash in front of the position is passed over. -/
theorem find_later {first : Bytes} (rest : Bytes) {pos : Nat} (behind : first.length < pos) :
    find (first ++ 47 :: rest) pos =
      (find rest (pos - (first.length + 1))).map (first.length + 1 + ·) := by
  have shifted : (first ++ 47 :: rest).drop pos = rest.drop (pos - (first.length + 1)) := by
    rw [List.drop_append, List.drop_eq_nil_of_le (Nat.le_of_lt behind), List.nil_append]
    obtain ⟨offset, rfl⟩ : ∃ offset, pos = first.length + 1 + offset :=
      ⟨pos - (first.length + 1), by omega⟩
    have split : first.length + 1 + offset - first.length = offset + 1 := by omega
    rw [split, List.drop_succ_cons, Nat.add_sub_cancel_left]
  unfold find
  rw [shifted, Option.map_map]
  congr 1
  funext offset
  simp only [Function.comp]
  omega

section Prefixes

variable {first second rest : Bytes}

/-- The first slash is the one that is found. -/
theorem robot_id_first (fresh : 47 ∉ first) (long : 6 ≤ first.length) :
    robot_id (first ++ 47 :: rest) = some first := by
  rw [robot_id_eq, find_here fresh long, Option.map_some, List.take_left]

/-- The second slash is the one that is found. -/
theorem robot_id_second (fresh : 47 ∉ second) (short : first.length < 6)
    (long : 6 ≤ first.length + 1 + second.length) :
    robot_id (first ++ 47 :: (second ++ 47 :: rest)) = some (first ++ 47 :: second) := by
  have within : 6 - (first.length + 1) ≤ second.length := by omega
  have whole : first ++ 47 :: (second ++ 47 :: rest) = (first ++ 47 :: second) ++ 47 :: rest := by
    simp
  have length : first.length + 1 + second.length = (first ++ 47 :: second).length := by
    simp
    omega
  rw [robot_id_eq, find_later _ short, find_here fresh within, Option.map_some, Option.map_some,
    length, whole, List.take_left]

/-- Behind a short first chunk there is no slash to find. -/
theorem robot_id_none (fresh : 47 ∉ second) (short : first.length < 6) :
    robot_id (first ++ 47 :: second) = none := by
  rw [robot_id_eq, find_later _ short, find_none fresh, Option.map_none, Option.map_none]

/-- What is found behind two short chunks is longer than they are. -/
theorem robot_id_beyond (short : first.length + 1 + second.length < 6) :
    robot_id (first ++ 47 :: (second ++ 47 :: rest)) ≠ some (first ++ 47 :: second) := by
  intro found
  have before : first.length < 6 := by omega
  have between : second.length < 6 - (first.length + 1) := by omega
  rw [robot_id_eq, find_later _ before, find_later _ between, Option.map_map, Option.map_map,
    Option.map_eq_some_iff] at found
  obtain ⟨offset, -, taken⟩ := found
  have lengths := congrArg List.length taken
  simp only [Function.comp, List.length_take, List.length_append, List.length_cons] at lengths
  omega

end Prefixes

/-- A frame stores its time under the robot of its key. -/
theorem seenSession_apply (sessions : Bytes → Option TimePoint) (key : Bytes) (now : TimePoint)
    (robot : Bytes) : seenSession sessions key now robot =
      if robot_id key = some robot then some now else sessions robot := by
  unfold seenSession
  cases robot_id key with
  | none => simp
  | some found => simp [Function.update_apply, eq_comm]

/-- A key is tracked if it gives the prefix of its robot. -/
theorem tracked_iff (key : Bytes) : Tracked key ↔ robot_id key = robotPrefix key := by
  constructor
  · intro tracked
    apply Option.ext
    intro robot
    have booked := tracked (fun _ => none) 0 robot
    rw [seenSession_apply] at booked
    by_cases own : robot_id key = some robot <;>
      by_cases wanted : robotPrefix key = some robot <;> simp_all
  · intro same sessions now robot
    rw [seenSession_apply, same]

/-- The code finds the second slash where it lies behind byte six. -/
theorem robotPrefix_iff (key : Bytes) : robot_id key = robotPrefix key ↔ SixBetween key := by
  unfold robotPrefix SixBetween
  rcases chunks_cases key with ⟨fresh, alone⟩ | ⟨first, tail, fresh, rfl, split⟩
  · simp [alone, robot_id_eq, find_none fresh]
  rcases chunks_cases tail with ⟨later, last⟩ | ⟨second, rest, later, rfl, more⟩
  · rw [split, last]
    by_cases short : first.length < 6
    · simp [robot_id_none later short, short]
    · simp [robot_id_first fresh (Nat.le_of_not_lt short), short]
  · obtain ⟨third, others, found⟩ := List.exists_cons_of_ne_nil
      (show chunks rest ≠ [] from List.splitOn_ne_nil _ _)
    rw [split, more, found]
    by_cases short : first.length < 6
    · by_cases long : 6 ≤ first.length + 1 + second.length
      · simp [robot_id_second later short long, short, long]
      · simp [robot_id_beyond (Nat.lt_of_not_le long), short, long]
    · rw [robot_id_first fresh (Nat.le_of_not_lt short)]
      simp [short]

/-- The slashes can be counted. -/
instance (key : Bytes) : Decidable (SixBetween key) :=
  decidable_of_iff _ (robotPrefix_iff key)

/-- The first slash splits a key in one way. -/
theorem append_slash_inj {first second other rest : Bytes} (fresh : 47 ∉ first)
    (too : 47 ∉ other) :
    first ++ 47 :: second = other ++ 47 :: rest ↔ first = other ∧ second = rest := by
  constructor
  · intro same
    have places := congrArg (List.idxOf? 47) same
    rw [idxOf?_append_cons fresh, idxOf?_append_cons too] at places
    obtain ⟨firsts, tails⟩ := List.append_inj same (Option.some.inj places)
    exact ⟨firsts, (List.cons.inj tails).2⟩
  · rintro ⟨rfl, rfl⟩
    rfl

/-- The prefix of a key with three chunks. -/
theorem robotPrefix_some {key : Bytes} (three : 3 ≤ (chunks key).length) :
    ∃ first second, 47 ∉ first ∧ robotPrefix key = some (first ++ 47 :: second) ∧
      (chunks key).take 2 = [first, second] := by
  rcases chunks_cases key with ⟨-, alone⟩ | ⟨first, rest, fresh, -, split⟩
  · simp [alone] at three
  · rw [split, List.length_cons] at three
    match more : chunks rest with
    | [] => simp [more] at three
    | [_] => simp [more] at three
    | second :: third :: others =>
      exact ⟨first, second, fresh, by simp [robotPrefix, split, more], by simp [split, more]⟩

/-- Two keys of three chunks have the same prefix if their first two chunks agree. -/
theorem robotPrefix_inj {key other : Bytes} (three : 3 ≤ (chunks key).length)
    (too : 3 ≤ (chunks other).length) :
    robotPrefix key = robotPrefix other ↔ (chunks key).take 2 = (chunks other).take 2 := by
  obtain ⟨first, second, fresh, found, taken⟩ := robotPrefix_some three
  obtain ⟨first', second', fresh', found', taken'⟩ := robotPrefix_some too
  rw [found, found', taken, taken', Option.some.injEq, append_slash_inj fresh fresh']
  simp

/-- A valid key is booked on the session of its first two chunks exactly if its slashes lie on
the two sides of byte six, and two such keys share a session if these chunks agree. -/
theorem session_of_two_chunks (key : Bytes) (_valid : ValidKey key) :
    (Tracked key ↔ SixBetween key) ∧
      ∀ other, ValidKey other → SixBetween key → SixBetween other →
        3 ≤ (chunks key).length → 3 ≤ (chunks other).length →
          (robot_id key = robot_id other ↔ (chunks key).take 2 = (chunks other).take 2) := by
  constructor
  · rw [tracked_iff, robotPrefix_iff]
  · intro other _ between too three four
    rw [(robotPrefix_iff key).mpr between, (robotPrefix_iff other).mpr too]
    exact robotPrefix_inj three four

section Examples

open Reactor (ascii telemetryPath)

/-- `robot/uav0/cmd`. -/
def commandPath : Bytes :=
  ascii ['r', 'o', 'b', 'o', 't', '/', 'u', 'a', 'v', '0', '/', 'c', 'm', 'd']

/-- `a/b/cmd`. -/
def shortPath : Bytes :=
  ascii ['a', '/', 'b', '/', 'c', 'm', 'd']

/-- Telemetry and commands of a robot are one session. -/
theorem robotKeys_shared : Tracked telemetryPath ∧
    robot_id telemetryPath = robot_id commandPath := by
  obtain ⟨tracked, shared⟩ := session_of_two_chunks telemetryPath (by decide +kernel)
  have between : SixBetween telemetryPath := by decide +kernel
  have too : SixBetween commandPath := by decide +kernel
  exact ⟨tracked.mpr between, (shared commandPath (by decide +kernel) between too
    (by decide +kernel) (by decide +kernel)).mpr (by decide +kernel)⟩

/-- A key of three chunks whose frames are booked on no session. -/
theorem shortPath_untracked : ValidKey shortPath ∧ (chunks shortPath).length = 3 ∧
    robot_id shortPath = none ∧ ¬ Tracked shortPath := by
  refine ⟨by decide +kernel, by decide +kernel, by decide +kernel, ?_⟩
  rw [tracked_iff]
  decide +kernel

end Examples

end FlowKernel.SessionKeys
