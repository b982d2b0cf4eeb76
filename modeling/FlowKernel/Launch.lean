import FlowKernel.Configuration
import FlowKernel.RegistrationRouting

/-!
# What `main` makes of a configuration file

`main` loads the file into a fresh `Config`, registers one handler for each entry of its
list, and gives every handler a callback that captured the entry's priority. A callback
looks at the type of the message before it logs a line.

The YAML library, the verifier, the key expression parser and the reader of the messages
are parameters. A latency is kept in nanoseconds, as the difference that the callback
computes.
-/

namespace FlowKernel.Launch

open Foundation FlowKernel.Configuration

variable {Node : Type}

/-- Everything but the two names is BACKGROUND. -/
def parse_priority (priority_str : String) : TopicPriority :=
  if priority_str = "CRITICAL" then .critical
  else if priority_str = "NORMAL" then .normal
  else .background

/-- A `std::string` read from the file. -/
def bytes (text : String) : Bytes :=
  text.toList.flatMap String.utf8EncodeChar

/-- The call of `register_handler` for an entry. The callback is the priority it captured. -/
def registration (handler_config : HandlerConfig) : Registration TopicPriority :=
  let priority := parse_priority handler_config.priority
  { path := bytes handler_config.path, priority := priority, callback := priority }

/-- The reactor that `main` runs. -/
def reactorConfig (config : Config) (verify keyexpr : Bytes → Bool) :
    Reactor.Config TopicPriority where
  registrations := config.handlers_.map registration
  verify := verify
  keyexpr := keyexpr

/-- `main` goes on with a configuration that has been loaded. -/
def start (yaml : Yaml Node) (config_path : String) (file : File Node) : Option Config :=
  match load yaml {} config_path file with
  | (.returned true, config) => some config
  | (.returned false, _) | (.threw _, _) => none

/-- The types of payload in the schema of the messages. -/
inductive MessagePayload where
  | NONE
  | Telemetry
  | ControlCommand
  | EStop
deriving DecidableEq

/-- What a callback reads of a message: the type of its payload, and the timestamp of the
payload if there is one. -/
structure RobotMessage where
  payload_type : MessagePayload
  payload : Option U64
deriving DecidableEq

/-- The levels that the callbacks log at. -/
inductive Level where
  | debug
  | info
  | warn
deriving DecidableEq

/-- A line in the log: its level, its fixed text, and the latency behind it. -/
structure Line where
  level : Level
  text : String
  latency : U64
deriving DecidableEq

/-- The callback of a handler, called at `now`. -/
def callback (priority : TopicPriority) (msg : RobotMessage) (now : U64) : Option Line :=
  if priority = .critical ∧ msg.payload_type = .EStop then
    msg.payload.map fun timestamp =>
      { level := .warn, text := "[CRITICAL] E-Stop arrived! E2E Latency: "
        latency := now - timestamp }
  else if priority = .normal ∧ msg.payload_type = .Telemetry then
    msg.payload.map fun timestamp =>
      { level := .info, text := "[NORMAL] Telemetry E2E Latency: ", latency := now - timestamp }
  else if priority = .background ∧ msg.payload_type = .Telemetry then
    msg.payload.map fun timestamp =>
      { level := .debug, text := "[BACKGROUND] Costmap E2E Latency: "
        latency := now - timestamp }
  else none

/-- The least level that is printed: `warn` under the terminal interface, else `info`. -/
def printed (enabled : Bool) : Level → Bool
  | .warn => true
  | .info => !enabled
  | .debug => false

/-- The entries that a file lists. A missing file lists none. -/
def entries (yaml : Yaml Node) : File Node → Except String (List HandlerConfig)
  | .missing => .ok []
  | .inaccessible what | .unreadable what => .error what
  | .readable root => do
      let node ← yaml.subscript root "handlers"
      if yaml.defined node then (← yaml.items node).mapM (parse_handler yaml) else return []

/-- The program leaves the handlers alone, however it ends. -/
def Leaves {α : Type} (program : Parse α) : Prop :=
  ∀ store : Store, (program.run.run store).2.config.handlers_ = store.config.handlers_

section Programs

variable {α β : Type} {store after : Store}

/-- A program that only returns. -/
theorem leaves_pure (value : α) : Leaves (pure value) :=
  fun _ => rfl

/-- A call of the library. -/
theorem leaves_ofExcept (outcome : Except String α) : Leaves (ofExcept outcome) := by
  intro store
  rw [run_ofExcept]

/-- Two parts, each of which leaves the handlers alone. -/
theorem leaves_bind {program : Parse α} {next : α → Parse β} (first : Leaves program)
    (second : ∀ value, Leaves (next value)) : Leaves (program >>= next) := by
  intro store
  have before := first store
  rw [run_bind]
  cases ran : program.run.run store with
  | mk outcome mid =>
    rw [ran] at before
    cases outcome with
    | error what => exact before
    | ok value => exact (second value mid).trans before

/-- An assignment to another field. -/
theorem leaves_assign (setting : Setting) (other : setting ≠ .handlers)
    (value : setting.Value) : Leaves (assign setting value) := by
  intro store
  exact get_set_other store.config setting value other.symm

/-- A field that is not the list of handlers. -/
theorem leaves_field (yaml : Yaml Node) (node : Node) (key : String) (setting : Setting)
    (other : setting ≠ .handlers) (as : Node → Except String setting.Value) :
    Leaves (field yaml node key setting as) := by
  apply leaves_bind (leaves_ofExcept _)
  intro found
  split
  · apply leaves_bind (leaves_ofExcept _)
    intro again
    exact leaves_bind (leaves_ofExcept _) fun value => leaves_assign setting other value
  · exact leaves_pure ()

/-- A block whose body leaves them alone. -/
theorem leaves_block (yaml : Yaml Node) (node : Node) (key : String) {parse : Node → Parse Unit}
    (inner : ∀ node, Leaves (parse node)) : Leaves (block yaml node key parse) := by
  apply leaves_bind (leaves_ofExcept _)
  intro found
  split
  · exact leaves_bind (leaves_ofExcept _) inner
  · exact leaves_pure ()

/-- A program that ends well has got past a part that leaves the handlers alone. -/
theorem past {program : Parse α} {next : α → Parse β} {result : β} (first : Leaves program)
    (ran : (program >>= next).run.run store = (.ok result, after)) :
    ∃ value mid, mid.config.handlers_ = store.config.handlers_ ∧
      (next value).run.run mid = (.ok result, after) := by
  have kept := first store
  rw [run_bind] at ran
  cases outcome : program.run.run store with
  | mk ended mid =>
    rw [outcome] at ran kept
    cases ended with
    | error what => cases (Prod.mk.inj ran).1
    | ok value => exact ⟨value, mid, kept, ran⟩

/-- A program that ends well has got past a call of the library. -/
theorem run_ofExcept_ok {outcome : Except String α} {next : α → Parse β} {result : β}
    (ran : (ofExcept outcome >>= next).run.run store = (.ok result, after)) :
    ∃ value, outcome = .ok value ∧ (next value).run.run store = (.ok result, after) := by
  rw [run_bind, run_ofExcept] at ran
  cases outcome with
  | error what => cases (Prod.mk.inj ran).1
  | ok value => exact ⟨value, rfl, ran⟩

end Programs

section Documents

variable (yaml : Yaml Node) {store after : Store}

/-- The block `server` has no handlers. -/
theorem leaves_parse_server (node : Node) : Leaves (parse_server yaml node) := by
  apply leaves_bind (leaves_field _ _ _ _ (by simp) _)
  intro _
  apply leaves_bind (leaves_field _ _ _ _ (by simp) _)
  intro _
  exact leaves_field _ _ _ _ (by simp) _

/-- The block `channels` has no handlers. -/
theorem leaves_parse_channels (node : Node) : Leaves (parse_channels yaml node) := by
  apply leaves_bind
  · apply leaves_block
    intro crit
    exact leaves_bind (leaves_field _ _ _ _ (by simp) _) fun _ =>
      leaves_field _ _ _ _ (by simp) _
  intro _
  apply leaves_bind
  · apply leaves_block
    intro norm
    exact leaves_field _ _ _ _ (by simp) _
  intro _
  apply leaves_block
  intro bg
  exact leaves_bind (leaves_field _ _ _ _ (by simp) _) fun _ => leaves_field _ _ _ _ (by simp) _

/-- The block `liveliness` has no handlers. -/
theorem leaves_parse_liveliness (node : Node) : Leaves (parse_liveliness yaml node) :=
  leaves_bind (leaves_field _ _ _ _ (by simp) _) fun _ => leaves_field _ _ _ _ (by simp) _

/-- The block `tui` has no handlers. -/
theorem leaves_parse_tui (node : Node) : Leaves (parse_tui yaml node) := by
  apply leaves_bind (leaves_field _ _ _ _ (by simp) _)
  intro _
  apply leaves_bind (leaves_field _ _ _ _ (by simp) _)
  intro _
  exact leaves_bind (leaves_field _ _ _ _ (by simp) _) fun _ => leaves_field _ _ _ _ (by simp) _

/-- The loop over the entries appends what `mapM` collects. -/
theorem appended {items : List Node}
    (ran : (forM items fun handler => do
      push_back (← ofExcept (parse_handler yaml handler)) : Parse PUnit).run.run store =
        (.ok (), after)) :
    ∃ parsed, items.mapM (parse_handler yaml) = .ok parsed ∧
      after.config.handlers_ = store.config.handlers_ ++ parsed := by
  induction items generalizing store with
  | nil =>
    obtain ⟨-, rfl⟩ := Prod.mk.inj ran
    exact ⟨[], rfl, (List.append_nil _).symm⟩
  | cons handler rest inductionHypothesis =>
    rw [List.forM_cons, run_bind] at ran
    cases entry : parse_handler yaml handler with
    | error what =>
      rw [run_bind, entry, run_ofExcept] at ran
      cases (Prod.mk.inj ran).1
    | ok hc =>
      rw [run_bind, entry, run_ofExcept] at ran
      simp only [run_push_back] at ran
      obtain ⟨parsed, collected, handlers⟩ := inductionHypothesis ran
      refine ⟨hc :: parsed, ?_, ?_⟩
      · rw [List.mapM_cons, entry, collected]
        rfl
      · have extended : (store.writeAll
            [⟨.handlers, store.config.handlers_ ++ [hc]⟩]).config.handlers_ =
              store.config.handlers_ ++ [hc] := rfl
        rw [handlers, extended, List.append_assoc, List.singleton_append]

/-- The list of handlers is that of the sequence, entry by entry. -/
theorem parse_handlers_lists {node : Node}
    (ran : (parse_handlers yaml node).run.run store = (.ok (), after)) :
    ∃ items, yaml.items node = .ok items ∧
      items.mapM (parse_handler yaml) = .ok after.config.handlers_ := by
  rw [parse_handlers, run_bind, run_assign] at ran
  obtain ⟨items, listed, loop⟩ := run_ofExcept_ok ran
  obtain ⟨parsed, collected, handlers⟩ := appended yaml loop
  refine ⟨items, listed, ?_⟩
  rw [collected, handlers]
  rfl

/-- A document that parses leaves the entries it lists. -/
theorem parse_lists {root : Node} (fresh : store.config.handlers_ = [])
    (ran : (parse yaml root).run.run store = (.ok (), after)) :
    entries yaml (.readable root) = .ok after.config.handlers_ := by
  obtain ⟨_, _, server, ran⟩ := past (leaves_block _ _ _ (leaves_parse_server yaml)) ran
  obtain ⟨_, _, zenoh, ran⟩ := past
    (leaves_block _ _ _ fun node => leaves_field yaml node _ .config_path (by simp) _) ran
  obtain ⟨_, _, channels, ran⟩ := past (leaves_block _ _ _ (leaves_parse_channels yaml)) ran
  obtain ⟨_, _, liveliness, ran⟩ := past (leaves_block _ _ _ (leaves_parse_liveliness yaml)) ran
  obtain ⟨_, last, tui, ran⟩ := past (leaves_block _ _ _ (leaves_parse_tui yaml)) ran
  have untouched : last.config.handlers_ = [] := by
    rw [tui, liveliness, channels, zenoh, server, fresh]
  obtain ⟨node, found, ran⟩ := run_ofExcept_ok ran
  simp only [entries, found]
  by_cases present : yaml.defined node = true
  · rw [if_pos present] at ran
    obtain ⟨again, same, ran⟩ := run_ofExcept_ok ran
    obtain rfl : node = again := Except.ok.inj (found.symm.trans same)
    obtain ⟨items, listed, collected⟩ := parse_handlers_lists yaml ran
    simp only [bind, Except.bind, if_pos present, listed, collected]
  · rw [if_neg present] at ran
    obtain ⟨-, rfl⟩ := Prod.mk.inj ran
    simp only [bind, Except.bind, if_neg present, untouched]
    rfl

/-- The handlers that `main` registers are the entries of its file, in order. -/
theorem start_entries {config_path : String} {file : File Node} {config : Config}
    (started : start yaml config_path file = some config) :
    entries yaml file = .ok config.handlers_ := by
  cases file with
  | missing =>
    obtain rfl := Option.some.inj started
    rfl
  | inaccessible what | unreadable what => simp [start, load] at started
  | readable root =>
    cases ran : (parse yaml root).run.run ⟨{ config_path_ := config_path }, []⟩ with
    | mk outcome store =>
      simp only [start, load, ran] at started
      cases outcome with
      | error what => simp at started
      | ok value =>
        obtain rfl := Option.some.inj started
        exact parse_lists yaml rfl ran

end Documents

/-- The entry under which a frame was received says what happens to it: which callback
ran, and which window and counter it was charged to. -/
def Own (handlers : List HandlerConfig) (call : Reactor.Call TopicPriority) : Prop :=
  ∃ entry, handlers[call.frame.registration]? = some entry ∧
    call.callback = parse_priority entry.priority ∧
      call.latency = parse_priority entry.priority ∧ call.processed = parse_priority entry.priority

/-- The dispatches of a run. -/
def Dispatched (log : List (Reactor.Event TopicPriority)) (call : Reactor.Call TopicPriority) :
    Prop :=
  call ∈ Reactor.queueCalls log ∨ ∃ hash, call ∈ Reactor.slotCalls hash log

/-- Every entry that can be subscribed has the priority of the first entry with its hash. -/
def Consistent (handlers : List HandlerConfig) (keyexpr : Bytes → Bool) : Prop :=
  ∀ entry ∈ handlers, keyexpr (bytes entry.path) = true →
    ∀ first, (handlers.find? fun other =>
        fnv1a_hash (bytes other.path) = fnv1a_hash (bytes entry.path)) = some first →
      parse_priority first.priority = parse_priority entry.priority

section Routing

variable {config : Config} {verify keyexpr : Bytes → Bool}

/-- The registration under the hash of an entry is that of the first entry with it. -/
theorem first_entry (entry : HandlerConfig) :
    (reactorConfig config verify keyexpr).first (registration entry) =
      (config.handlers_.find? fun other =>
        fnv1a_hash (bytes other.path) = fnv1a_hash (bytes entry.path)).map registration := by
  rw [Reactor.Config.first, reactorConfig, List.find?_map]
  rfl

/-- The registrations of a file are unshadowed just if its entries agree. -/
theorem unshadowed_iff :
    Reactor.Unshadowed (reactorConfig config verify keyexpr) ↔
      Consistent config.handlers_ keyexpr := by
  constructor
  · intro unshadowed entry listed valid first found
    have member : registration entry ∈ (reactorConfig config verify keyexpr).registrations :=
      List.mem_map_of_mem listed
    have shadow := unshadowed (registration entry) member valid (registration first)
      (by rw [first_entry, found]; rfl)
    exact shadow.1
  · intro consistent call member valid first found
    obtain ⟨entry, listed, rfl⟩ := List.mem_map.mp member
    rw [first_entry, Option.map_eq_some_iff] at found
    obtain ⟨shadow, earliest, rfl⟩ := found
    have same := consistent entry listed valid shadow earliest
    exact ⟨same, .inr same⟩

/-- The callback of a registration is its priority. -/
theorem own_iff_charged {call : Reactor.Call TopicPriority} :
    Own config.handlers_ call ↔
      Reactor.Charged (reactorConfig config verify keyexpr) call := by
  constructor
  · rintro ⟨entry, listed, charged⟩
    refine ⟨registration entry, ?_, charged⟩
    simp [reactorConfig, listed]
  · rintro ⟨registered, present, charged⟩
    simp only [reactorConfig, List.getElem?_map, Option.map_eq_some_iff] at present
    obtain ⟨entry, listed, rfl⟩ := present
    exact ⟨entry, listed, charged⟩

/-- Every call goes to the entry it belongs to just if the reactor routes so. -/
theorem routesOwn_iff :
    (∀ s, (Reactor.machine (reactorConfig config verify keyexpr)).Reachable s →
      ∀ call, Dispatched s.log call → Own config.handlers_ call) ↔
    Reactor.RoutesOwn (reactorConfig config verify keyexpr) := by
  constructor
  · intro own s reached
    refine ⟨fun call member => own_iff_charged.mp (own s reached call (.inl member)), ?_⟩
    exact fun hash call member => own_iff_charged.mp (own s reached call (.inr ⟨hash, member⟩))
  · rintro routes s reached call (queued | ⟨hash, cached⟩)
    · exact own_iff_charged.mpr ((routes s reached).1 call queued)
    · exact own_iff_charged.mpr ((routes s reached).2 hash call cached)

/-- `main` serves the entries that its file lists. In every run every frame is dispatched
as the entry asks under which it was received, exactly if entries whose paths share a hash
have one priority. The verifier need only accept some message. -/
theorem entries_served (yaml : Yaml Node) {config_path : String} {file : File Node}
    (started : start yaml config_path file = some config)
    (accepts : ∃ payload, payload ≠ [] ∧ verify payload = true) :
    entries yaml file = .ok config.handlers_ ∧
      ((∀ s, (Reactor.machine (reactorConfig config verify keyexpr)).Reachable s →
        ∀ call, Dispatched s.log call → Own config.handlers_ call) ↔
          Consistent config.handlers_ keyexpr) := by
  refine ⟨start_entries yaml started, ?_⟩
  rw [routesOwn_iff, ← unshadowed_iff]
  exact ⟨Reactor.unshadowed_of_routesOwn accepts, Reactor.routesOwn_of_unshadowed⟩

/-- The line that a dispatched frame puts on the console. -/
def output (enabled : Bool) (decode : Bytes → RobotMessage) (call : Reactor.Call TopicPriority)
    (now : U64) : Option Line :=
  (callback call.callback (decode call.frame.payload) now).filter fun line =>
    printed enabled line.level

/-- The entry under which a frame was received has this priority, and the frame this
payload. -/
def Received (handlers : List HandlerConfig) (priority : TopicPriority) (msg : RobotMessage)
    (payload_type : MessagePayload) (call : Reactor.Call TopicPriority) : Prop :=
  (∃ entry, handlers[call.frame.registration]? = some entry ∧
    parse_priority entry.priority = priority) ∧
  msg.payload_type = payload_type ∧ msg.payload.isSome = true

/-- What a dispatched frame puts on the console: a warning for an E-Stop under a CRITICAL
entry, in both modes; a note for telemetry under a NORMAL entry, without the terminal
interface; nothing else. -/
structure Console (handlers : List HandlerConfig) (enabled : Bool)
    (decode : Bytes → RobotMessage) (call : Reactor.Call TopicPriority) (now : U64) : Prop where
  warning : (∃ line, output enabled decode call now = some line ∧ line.level = .warn) ↔
    Received handlers .critical (decode call.frame.payload) .EStop call
  note : (∃ line, output enabled decode call now = some line ∧ line.level = .info) ↔
    enabled = false ∧ Received handlers .normal (decode call.frame.payload) .Telemetry call
  silent : ∀ line, output enabled decode call now = some line → line.level ≠ .debug
  latency : ∀ line, output enabled decode call now = some line →
    ∃ timestamp, (decode call.frame.payload).payload = some timestamp ∧
      line.latency = now - timestamp

/-- The lines of a callback, by the priority it captured. -/
theorem callback_line (enabled : Bool) (priority : TopicPriority) (msg : RobotMessage) (now : U64) :
    (((∃ line, (callback priority msg now).filter (fun line => printed enabled line.level) =
        some line ∧ line.level = .warn) ↔
      priority = .critical ∧ msg.payload_type = .EStop ∧ msg.payload.isSome = true) ∧
    ((∃ line, (callback priority msg now).filter (fun line => printed enabled line.level) =
        some line ∧ line.level = .info) ↔
      enabled = false ∧ priority = .normal ∧ msg.payload_type = .Telemetry ∧
        msg.payload.isSome = true)) ∧
    ∀ line, (callback priority msg now).filter (fun line => printed enabled line.level) =
        some line →
      line.level ≠ .debug ∧
        ∃ timestamp, msg.payload = some timestamp ∧ line.latency = now - timestamp := by
  obtain ⟨payload_type, payload⟩ := msg
  cases payload with
  | none => cases priority <;> cases payload_type <;> simp [callback]
  | some timestamp =>
    cases priority <;> cases payload_type <;> cases enabled <;>
      simp [callback, printed, Option.filter]

/-- In every run of the reactor that `main` sets up from its file, the console shows an
E-Stop warning exactly for the E-Stops received under entries that say CRITICAL. -/
theorem console_contract (yaml : Yaml Node) {config_path : String} {file : File Node}
    (started : start yaml config_path file = some config)
    (consistent : Consistent config.handlers_ keyexpr) {s : Reactor.State TopicPriority}
    (reached : (Reactor.machine (reactorConfig config verify keyexpr)).Reachable s)
    {call : Reactor.Call TopicPriority} (dispatched : Dispatched s.log call) (enabled : Bool)
    (decode : Bytes → RobotMessage) (now : U64) :
    entries yaml file = .ok config.handlers_ ∧
      Console config.handlers_ enabled decode call now := by
  refine ⟨start_entries yaml started, ?_⟩
  have routes := Reactor.routesOwn_of_unshadowed
    ((@unshadowed_iff config verify keyexpr).mpr consistent)
  obtain ⟨entry, listed, captured, _⟩ := routesOwn_iff.mpr routes s reached call dispatched
  obtain ⟨⟨warning, note⟩, lines⟩ :=
    callback_line enabled call.callback (decode call.frame.payload) now
  have own : ∀ priority, call.callback = priority ↔
      ∃ entry, config.handlers_[call.frame.registration]? = some entry ∧
        parse_priority entry.priority = priority := by
    intro priority
    constructor
    · rintro rfl
      exact ⟨entry, listed, captured.symm⟩
    · rintro ⟨found, present, rfl⟩
      obtain rfl : entry = found := Option.some.inj (listed.symm.trans present)
      exact captured
  exact
    { warning := warning.trans (and_congr_left' (own .critical))
      note := note.trans (and_congr_right' (and_congr_left' (own .normal)))
      silent := fun line shown => (lines line shown).1
      latency := fun line shown => (lines line shown).2 }

end Routing

section Shipped

/-- An entry of the list of handlers, as the library reads it. -/
def entry (path priority description : String) : Tree :=
  .map [("path", .scalar path), ("priority", .scalar priority),
    ("description", .scalar description)]

/-- The handlers of `config/default.yaml`, without the terminal interface. -/
def shippedFile : Tree :=
  .map [("handlers", .sequence [entry "robot/*/cmd/estop" "CRITICAL" "estop",
    entry "robot/uav0/telemetry" "NORMAL" "telemetry",
    entry "robot/*/costmap" "BACKGROUND" "costmap"]),
    ("tui", .map [("enabled", .scalar "false")])]

/-- What the shipped file is loaded to. -/
def shippedConfig : Config where
  config_path_ := "kernel.yaml"
  handlers_ := [⟨"robot/*/cmd/estop", "CRITICAL", "estop"⟩,
    ⟨"robot/uav0/telemetry", "NORMAL", "telemetry"⟩, ⟨"robot/*/costmap", "BACKGROUND", "costmap"⟩]
  tui_ := { enabled := false }

/-- A verifier that accepts one message. -/
def acceptsEmpty (payload : Bytes) : Bool :=
  payload = Reactor.emptyMessage

/-- `main` goes on with the shipped file. -/
theorem shipped_started :
    start treeYaml "kernel.yaml" (.readable shippedFile) = some shippedConfig := by
  decide +kernel

/-- Its reactor is the one of the other examples. -/
theorem shipped_reactor :
    reactorConfig shippedConfig acceptsEmpty (fun _ => true) = Reactor.defaultConfig := by
  have estop : bytes "robot/*/cmd/estop" = Reactor.estopPath := by decide +kernel
  have telemetry : bytes "robot/uav0/telemetry" = Reactor.telemetryPath := by decide +kernel
  have costmap : bytes "robot/*/costmap" = Reactor.costmapPath := by decide +kernel
  have registered : shippedConfig.handlers_.map registration = Reactor.defaultRegistrations := by
    simp [shippedConfig, registration, parse_priority, Reactor.defaultRegistrations, estop,
      telemetry, costmap]
  rw [reactorConfig, registered]
  rfl

/-- Its entries agree with one another, since no two of them have one hash. -/
theorem shipped_consistent : Consistent shippedConfig.handlers_ (fun _ => true) :=
  (@unshadowed_iff shippedConfig acceptsEmpty (fun _ => true)).mp
    (Reactor.unshadowed_of_distinct (by decide +kernel))

/-- The shipped file. -/
theorem shipped_served :
    (entries treeYaml (.readable shippedFile) = .ok shippedConfig.handlers_ ∧
      ((∀ s, (Reactor.machine (reactorConfig shippedConfig acceptsEmpty
          (fun _ => true))).Reachable s →
        ∀ call, Dispatched s.log call → Own shippedConfig.handlers_ call) ↔
          Consistent shippedConfig.handlers_ (fun _ => true))) ∧
      Consistent shippedConfig.handlers_ (fun _ => true) :=
  ⟨entries_served treeYaml shipped_started ⟨Reactor.emptyMessage, by decide, by decide⟩,
    shipped_consistent⟩

/-- Every message is an E-Stop. -/
def estopReader (_ : Bytes) : RobotMessage where
  payload_type := .EStop
  payload := some 0

/-- The E-Stop and the costmap of a run with the shipped handlers. -/
theorem shipped_console :
    ∃ s, (Reactor.machine Reactor.defaultConfig).Reachable s ∧
      ∃ call, Dispatched s.log call ∧
        entries treeYaml (.readable shippedFile) = .ok shippedConfig.handlers_ ∧
          Console shippedConfig.handlers_ false estopReader call 7 := by
  have outcome : ((Reactor.machine Reactor.defaultConfig).exec (Reactor.init TopicPriority)
      Reactor.mixedRun).map (fun s => (Reactor.queueCalls s.log).length) = some 1 := by
    decide +kernel
  obtain ⟨s, ran, seen⟩ := Option.map_eq_some_iff.mp outcome
  obtain ⟨call, member⟩ := List.exists_mem_of_length_pos (Nat.lt_of_lt_of_eq Nat.one_pos seen.symm)
  have reached := Machine.reachable_of_exec ran
  refine ⟨s, reached, call, .inl member, ?_⟩
  rw [← shipped_reactor] at reached
  exact console_contract treeYaml shipped_started shipped_consistent reached (.inl member) false
    estopReader 7

end Shipped

end FlowKernel.Launch
