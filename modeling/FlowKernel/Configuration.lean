import Mathlib.Logic.Basic

/-!
# Loading a configuration

`Config::load` overwrites its fields one at a time while it walks the document, and a throw
leaves what was written before it. `use_defaults`, which is called for a missing file and after
a throw of the YAML library, clears the path only. That library is a parameter: subscripts,
conversions and the iteration over a sequence yield a value or throw. The exception of
`std::filesystem::exists` is of another type, and leaves `load`.
-/

namespace FlowKernel.Configuration

variable {Node : Type}

/-- An entry of the list of handlers. -/
structure HandlerConfig where
  path : String := ""
  priority : String := ""
  description : String := ""
deriving DecidableEq

/-- The settings of a queued channel, with the defaults of `config.hpp`. -/
structure ChannelConfig where
  queue_size : Int := 512
  wakeup_mode : String := "eventfd"
deriving DecidableEq

/-- The settings of the BACKGROUND channel. -/
structure BackgroundChannelConfig where
  strategy : String := "latest_only"
  max_age_ms : Int := 200
deriving DecidableEq

/-- The key expression that is watched, and the one the E-Stop is published on. -/
structure LivelinessConfig where
  key : String := "robot/**"
  estop_publish_path : String := "robot/*/cmd/estop"
deriving DecidableEq

/-- The settings of the terminal interface. -/
structure TUIConfig where
  enabled : Bool := true
  refresh_rate_ms : Int := 100
  show_banner : Bool := false
  color_theme : String := "dark"
deriving DecidableEq

/-- The name, version and log level of the server. -/
structure ServerConfig where
  name : String := "FlowKernel"
  version : String := "2.3"
  log_level : String := "info"
deriving DecidableEq

/-- The path of the configuration of Zenoh. -/
structure ZenohConfig where
  config_path : String := ""
deriving DecidableEq

/-- The settings of the three channels. -/
structure ChannelsConfig where
  critical : ChannelConfig := {}
  normal : ChannelConfig := {}
  background : BackgroundChannelConfig := {}
deriving DecidableEq

/-- The configuration, with all of its defaults. -/
structure Config where
  config_path_ : String := ""
  server_ : ServerConfig := {}
  zenoh_ : ZenohConfig := {}
  channels_ : ChannelsConfig := {}
  liveliness_ : LivelinessConfig := {}
  tui_ : TUIConfig := {}
  handlers_ : List HandlerConfig := []
deriving DecidableEq

/-- The fields of a configuration, apart from the path of its file. -/
inductive Setting where
  | name | version | log_level
  | config_path
  | critical_queue_size | critical_wakeup_mode
  | normal_queue_size | normal_wakeup_mode
  | strategy | max_age_ms
  | key | estop_publish_path
  | enabled | refresh_rate_ms | show_banner | color_theme
  | handlers
deriving DecidableEq

/-- The type that the source gives a field. -/
@[reducible] def Setting.Value : Setting → Type
  | .critical_queue_size | .normal_queue_size | .max_age_ms | .refresh_rate_ms => Int
  | .enabled | .show_banner => Bool
  | .handlers => List HandlerConfig
  | _ => String

/-- The value of a field. -/
def Config.get (config : Config) : (setting : Setting) → setting.Value
  | .name => config.server_.name
  | .version => config.server_.version
  | .log_level => config.server_.log_level
  | .config_path => config.zenoh_.config_path
  | .critical_queue_size => config.channels_.critical.queue_size
  | .critical_wakeup_mode => config.channels_.critical.wakeup_mode
  | .normal_queue_size => config.channels_.normal.queue_size
  | .normal_wakeup_mode => config.channels_.normal.wakeup_mode
  | .strategy => config.channels_.background.strategy
  | .max_age_ms => config.channels_.background.max_age_ms
  | .key => config.liveliness_.key
  | .estop_publish_path => config.liveliness_.estop_publish_path
  | .enabled => config.tui_.enabled
  | .refresh_rate_ms => config.tui_.refresh_rate_ms
  | .show_banner => config.tui_.show_banner
  | .color_theme => config.tui_.color_theme
  | .handlers => config.handlers_

/-- An assignment to a field. -/
def Config.set (config : Config) : (setting : Setting) → setting.Value → Config
  | .name, value => { config with server_.name := value }
  | .version, value => { config with server_.version := value }
  | .log_level, value => { config with server_.log_level := value }
  | .config_path, value => { config with zenoh_.config_path := value }
  | .critical_queue_size, value => { config with channels_.critical.queue_size := value }
  | .critical_wakeup_mode, value => { config with channels_.critical.wakeup_mode := value }
  | .normal_queue_size, value => { config with channels_.normal.queue_size := value }
  | .normal_wakeup_mode, value => { config with channels_.normal.wakeup_mode := value }
  | .strategy, value => { config with channels_.background.strategy := value }
  | .max_age_ms, value => { config with channels_.background.max_age_ms := value }
  | .key, value => { config with liveliness_.key := value }
  | .estop_publish_path, value => { config with liveliness_.estop_publish_path := value }
  | .enabled, value => { config with tui_.enabled := value }
  | .refresh_rate_ms, value => { config with tui_.refresh_rate_ms := value }
  | .show_banner, value => { config with tui_.show_banner := value }
  | .color_theme, value => { config with tui_.color_theme := value }
  | .handlers, value => { config with handlers_ := value }

/-- What the code uses of the YAML library. `defined` is the test of a node as a condition,
which does not throw, and an exception is the text of its `what()`. -/
structure Yaml (Node : Type) where
  subscript : Node → String → Except String Node
  defined : Node → Bool
  asString : Node → Except String String
  asInt : Node → Except String Int
  asBool : Node → Except String Bool
  items : Node → Except String (List Node)

/-- A value given to a setting. -/
abbrev Assignment := (setting : Setting) × setting.Value

/-- The configuration under way. `assigned` is what the statements speak of, and nothing reads
it. -/
structure Store where
  config : Config
  assigned : List Assignment

/-- Code that writes to the configuration and may throw. What is written stays. -/
abbrev Parse := ExceptT String (StateM Store)

/-- An assignment under way. -/
def assign (setting : Setting) (value : setting.Value) : Parse Unit :=
  modify fun store =>
    { config := store.config.set setting value, assigned := store.assigned ++ [⟨setting, value⟩] }

/-- `if (node[key]) target = node[key].as<T>();` -/
def field (yaml : Yaml Node) (node : Node) (key : String) (setting : Setting)
    (as : Node → Except String setting.Value) : Parse Unit := do
  if yaml.defined (← ofExcept (yaml.subscript node key)) then
    let value ← ofExcept (as (← ofExcept (yaml.subscript node key)))
    assign setting value

/-- `if (node[key]) parse(node[key]);` -/
def block (yaml : Yaml Node) (node : Node) (key : String) (parse : Node → Parse Unit) :
    Parse Unit := do
  if yaml.defined (← ofExcept (yaml.subscript node key)) then
    parse (← ofExcept (yaml.subscript node key))

/-- `if (node[key]) target = node[key].as<std::string>();` for a local variable. -/
def optionalString (yaml : Yaml Node) (node : Node) (key : String) : Except String String := do
  if yaml.defined (← yaml.subscript node key) then
    yaml.asString (← yaml.subscript node key)
  else return ""

/-- The block `server`: each field is read if it is there. -/
def parse_server (yaml : Yaml Node) (node : Node) : Parse Unit := do
  field yaml node "name" .name yaml.asString
  field yaml node "version" .version yaml.asString
  field yaml node "log_level" .log_level yaml.asString

/-- The block `zenoh`. -/
def parse_zenoh (yaml : Yaml Node) (node : Node) : Parse Unit :=
  field yaml node "config_path" .config_path yaml.asString

/-- The block `channels`. The wakeup mode of `normal` and whatever else a file gives are not
read. -/
def parse_channels (yaml : Yaml Node) (node : Node) : Parse Unit := do
  block yaml node "critical" fun crit => do
    field yaml crit "queue_size" .critical_queue_size yaml.asInt
    field yaml crit "wakeup_mode" .critical_wakeup_mode yaml.asString
  block yaml node "normal" fun norm =>
    field yaml norm "queue_size" .normal_queue_size yaml.asInt
  block yaml node "background" fun bg => do
    field yaml bg "strategy" .strategy yaml.asString
    field yaml bg "max_age_ms" .max_age_ms yaml.asInt

/-- The block `liveliness`. -/
def parse_liveliness (yaml : Yaml Node) (node : Node) : Parse Unit := do
  field yaml node "key" .key yaml.asString
  field yaml node "estop_publish_path" .estop_publish_path yaml.asString

/-- The block `tui`. -/
def parse_tui (yaml : Yaml Node) (node : Node) : Parse Unit := do
  field yaml node "enabled" .enabled yaml.asBool
  field yaml node "refresh_rate_ms" .refresh_rate_ms yaml.asInt
  field yaml node "show_banner" .show_banner yaml.asBool
  field yaml node "color_theme" .color_theme yaml.asString

/-- One entry of the sequence of handlers. -/
def parse_handler (yaml : Yaml Node) (handler : Node) : Except String HandlerConfig := do
  let path ← optionalString yaml handler "path"
  let priority ← optionalString yaml handler "priority"
  let description ← optionalString yaml handler "description"
  return { path, priority, description }

/-- One more entry at the end of the list of handlers. -/
def push_back (hc : HandlerConfig) : Parse Unit := do
  let store ← get
  assign .handlers (store.config.handlers_ ++ [hc])

/-- The list is cleared before the first entry is looked at. -/
def parse_handlers (yaml : Yaml Node) (node : Node) : Parse Unit := do
  assign .handlers []
  let items : List Node ← ofExcept (yaml.items node)
  forM items fun handler => do
    push_back (← ofExcept (parse_handler yaml handler))

/-- The body of `load` behind `YAML::LoadFile`. -/
def parse (yaml : Yaml Node) (root : Node) : Parse Unit := do
  block yaml root "server" (parse_server yaml)
  block yaml root "zenoh" (parse_zenoh yaml)
  block yaml root "channels" (parse_channels yaml)
  block yaml root "liveliness" (parse_liveliness yaml)
  block yaml root "tui" (parse_tui yaml)
  block yaml root "handlers" (parse_handlers yaml)

/-- The path is cleared, and no setting is touched. -/
def use_defaults (config : Config) : Config :=
  { config with config_path_ := "" }

/-- What is found under the path: nothing that `std::filesystem::exists` can look at, which
throws a `filesystem_error`, no file, one that `YAML::LoadFile` throws on, or a document. -/
inductive File (Node : Type) where
  | inaccessible (what : String)
  | missing
  | unreadable (what : String)
  | readable (root : Node)

/-- How a call of `load` ends. -/
inductive Loading where
  | returned (loaded : Bool)
  | threw (what : String)
deriving DecidableEq

/-- `Config::load`, with its result and the configuration it leaves. It catches the
exceptions of the YAML library only. -/
def load (yaml : Yaml Node) (config : Config) (config_path : String) :
    File Node → Loading × Config
  | .inaccessible what => (.threw what, config)
  | .missing => (.returned true, use_defaults config)
  | .unreadable _ => (.returned false, use_defaults config)
  | .readable root =>
      match (parse yaml root).run.run ⟨{ config with config_path_ := config_path }, []⟩ with
      | (.ok _, store) => (.returned true, store.config)
      | (.error _, store) => (.returned false, use_defaults store.config)

/-- The configuration is reported to be the default one. -/
def ReportsDefaults (yaml : Yaml Node) (config : Config) (config_path : String)
    (file : File Node) : Prop :=
  file = .missing ∨ (load yaml config config_path file).1 = .returned false

/-- The assignments that a document makes before it ends or throws. -/
def assignments (yaml : Yaml Node) : File Node → List Assignment
  | .readable root => ((parse yaml root).run.run ⟨{}, []⟩).2.assigned
  | _ => []

/-- The value that a setting is given last, if it is given any. -/
def lastAssigned (setting : Setting) : List Assignment → Option setting.Value
  | [] => none
  | assignment :: rest =>
      (lastAssigned setting rest).or
        (if same : assignment.1 = setting then some (same ▸ assignment.2) else none)

section Settings

variable (config : Config) (setting : Setting) (value : setting.Value)

/-- An assignment gives the field its value. -/
@[simp] theorem get_set_self : (config.set setting value).get setting = value := by
  cases setting <;> rfl

/-- An assignment leaves the other fields alone. -/
theorem get_set_other {other : Setting} (apart : other ≠ setting) :
    (config.set setting value).get other = config.get other := by
  cases setting <;> cases other <;> first | rfl | exact absurd rfl apart

/-- No setting is the path of the file. -/
@[simp] theorem config_path_set : (config.set setting value).config_path_ = config.config_path_ := by
  cases setting <;> rfl

/-- A configuration is its path and its settings. -/
theorem config_ext {config other : Config} (path : config.config_path_ = other.config_path_)
    (settings : ∀ setting, config.get setting = other.get setting) : config = other := by
  obtain ⟨_, ⟨⟩, ⟨⟩, ⟨⟨⟩, ⟨⟩, ⟨⟩⟩, ⟨⟩, ⟨⟩, _⟩ := config
  obtain ⟨_, ⟨⟩, ⟨⟩, ⟨⟨⟩, ⟨⟩, ⟨⟩⟩, ⟨⟩, ⟨⟩, _⟩ := other
  have name := settings .name
  have version := settings .version
  have log_level := settings .log_level
  have config_path := settings .config_path
  have critical_queue_size := settings .critical_queue_size
  have critical_wakeup_mode := settings .critical_wakeup_mode
  have normal_queue_size := settings .normal_queue_size
  have normal_wakeup_mode := settings .normal_wakeup_mode
  have strategy := settings .strategy
  have max_age_ms := settings .max_age_ms
  have key := settings .key
  have estop_publish_path := settings .estop_publish_path
  have enabled := settings .enabled
  have refresh_rate_ms := settings .refresh_rate_ms
  have show_banner := settings .show_banner
  have color_theme := settings .color_theme
  have handlers := settings .handlers
  simp only [Config.get] at *
  subst_vars
  rfl

end Settings

/-- Make assignments in order. -/
def Config.setAll (config : Config) (writes : List Assignment) : Config :=
  writes.foldl (fun config write => config.set write.1 write.2) config

/-- Assignments leave the path of the file alone. -/
@[simp] theorem config_path_setAll (config : Config) (writes : List Assignment) :
    (config.setAll writes).config_path_ = config.config_path_ := by
  induction writes generalizing config with
  | nil => rfl
  | cons write rest inductionHypothesis => exact (inductionHypothesis _).trans (by simp)

/-- A setting has the value that it was given last, or the one it had. -/
theorem get_setAll (config : Config) (writes : List Assignment) (setting : Setting) :
    (config.setAll writes).get setting =
      (lastAssigned setting writes).getD (config.get setting) := by
  induction writes generalizing config with
  | nil => rfl
  | cons write rest inductionHypothesis =>
    obtain ⟨target, value⟩ := write
    have tail := inductionHypothesis (config.set target value)
    rw [Config.setAll] at tail ⊢
    rw [List.foldl_cons, tail, lastAssigned]
    cases lastAssigned setting rest with
    | some last => rfl
    | none =>
      by_cases same : target = setting
      · subst same
        simp
      · simp [same, get_set_other _ _ _ (Ne.symm same)]

/-- The store after some assignments. -/
def Store.writeAll (store : Store) (writes : List Assignment) : Store where
  config := store.config.setAll writes
  assigned := store.assigned ++ writes

/-- No assignments change nothing. -/
@[simp] theorem writeAll_nil (store : Store) : store.writeAll [] = store := by
  simp [Store.writeAll, Config.setAll]

/-- Assignments made one after another are one list of them. -/
theorem writeAll_append (store : Store) (first second : List Assignment) :
    (store.writeAll first).writeAll second = store.writeAll (first ++ second) := by
  simp [Store.writeAll, Config.setAll]

/-- On every store that a condition holds of, the program makes the same assignments and ends
the same way. -/
def ObliviousOn {α : Type} (condition : Config → Prop) (program : Parse α) : Prop :=
  ∃ outcome writes, ∀ store : Store, condition store.config →
    program.run.run store = (outcome, store.writeAll writes)

/-- The program does not depend on the configuration it writes to. -/
abbrev Oblivious {α : Type} (program : Parse α) : Prop :=
  ObliviousOn (fun _ => True) program

section Programs

variable {α β : Type} {condition : Config → Prop}

/-- A program runs its first part, and goes on unless that has thrown. -/
theorem run_bind (program : Parse α) (next : α → Parse β) (store : Store) :
    (program >>= next).run.run store =
      match program.run.run store with
      | (.ok value, after) => (next value).run.run after
      | (.error what, after) => (.error what, after) := by
  rw [ExceptT.run_bind, StateT.run_bind]
  rcases ran : program.run.run store with ⟨outcome, after⟩
  cases outcome <;> rfl

/-- A call of the library writes nothing. -/
theorem run_ofExcept (outcome : Except String α) (store : Store) :
    (ofExcept outcome : Parse α).run.run store = (outcome, store) := by
  cases outcome <;> rfl

/-- An assignment writes one value. -/
theorem run_assign (setting : Setting) (value : setting.Value) (store : Store) :
    (assign setting value).run.run store = (.ok (), store.writeAll [⟨setting, value⟩]) :=
  rfl

/-- The list with one more entry is written as a whole. -/
theorem run_push_back (hc : HandlerConfig) (store : Store) :
    (push_back hc).run.run store =
      (.ok (), store.writeAll [⟨.handlers, store.config.handlers_ ++ [hc]⟩]) :=
  rfl

/-- A program that only returns. -/
theorem oblivious_pure (value : α) : ObliviousOn condition (pure value) :=
  ⟨.ok value, [], fun store _ => by rw [writeAll_nil]; rfl⟩

/-- A call of the library. -/
theorem oblivious_ofExcept (outcome : Except String α) :
    ObliviousOn condition (ofExcept outcome) :=
  ⟨outcome, [], fun store _ => by rw [writeAll_nil, run_ofExcept]⟩

/-- An assignment of a value that is known. -/
theorem oblivious_assign (setting : Setting) (value : setting.Value) :
    ObliviousOn condition (assign setting value) :=
  ⟨.ok (), [⟨setting, value⟩], fun store _ => run_assign setting value store⟩

/-- Two parts, of which the second may use what the first yields. -/
theorem oblivious_bind {program : Parse α} {next : α → Parse β}
    (first : ObliviousOn condition program) (second : ∀ value, Oblivious (next value)) :
    ObliviousOn condition (program >>= next) := by
  obtain ⟨outcome, writes, runs⟩ := first
  cases outcome with
  | error what =>
    refine ⟨.error what, writes, fun store holds => ?_⟩
    rw [run_bind, runs store holds]
  | ok value =>
    obtain ⟨outcome, more, continues⟩ := second value
    refine ⟨outcome, writes ++ more, fun store holds => ?_⟩
    rw [run_bind, runs store holds]
    simp only
    rw [continues _ trivial, writeAll_append]

/-- A branch on the document. -/
theorem oblivious_ite {test : Prop} [Decidable test] {first second : Parse α}
    (yes : ObliviousOn condition first) (no : ObliviousOn condition second) :
    ObliviousOn condition (if test then first else second) := by
  split
  · exact yes
  · exact no

end Programs

section Documents

variable (yaml : Yaml Node) (node : Node)

/-- A field of a block does not depend on the configuration. -/
theorem oblivious_field (key : String) (setting : Setting)
    (as : Node → Except String setting.Value) : Oblivious (field yaml node key setting as) := by
  apply oblivious_bind (oblivious_ofExcept _)
  intro found
  apply oblivious_ite
  · apply oblivious_bind (oblivious_ofExcept _)
    intro again
    exact oblivious_bind (oblivious_ofExcept _) fun value => oblivious_assign setting value
  · exact oblivious_pure ()

/-- A block does not depend on it if its body does not. -/
theorem oblivious_block (key : String) {parse : Node → Parse Unit}
    (inner : ∀ node, Oblivious (parse node)) : Oblivious (block yaml node key parse) := by
  apply oblivious_bind (oblivious_ofExcept _)
  intro found
  apply oblivious_ite
  · exact oblivious_bind (oblivious_ofExcept _) inner
  · exact oblivious_pure ()

/-- The block `server` does not depend on the configuration. -/
theorem oblivious_parse_server : Oblivious (parse_server yaml node) := by
  apply oblivious_bind (oblivious_field ..)
  intro _
  apply oblivious_bind (oblivious_field ..)
  intro _
  exact oblivious_field ..

/-- The block `channels` does not depend on the configuration. -/
theorem oblivious_parse_channels : Oblivious (parse_channels yaml node) := by
  apply oblivious_bind
  · apply oblivious_block
    intro crit
    exact oblivious_bind (oblivious_field ..) fun _ => oblivious_field ..
  intro _
  apply oblivious_bind
  · apply oblivious_block
    intro norm
    exact oblivious_field ..
  intro _
  apply oblivious_block
  intro bg
  exact oblivious_bind (oblivious_field ..) fun _ => oblivious_field ..

/-- The block `liveliness` does not depend on the configuration. -/
theorem oblivious_parse_liveliness : Oblivious (parse_liveliness yaml node) :=
  oblivious_bind (oblivious_field ..) fun _ => oblivious_field ..

/-- The block `tui` does not depend on the configuration. -/
theorem oblivious_parse_tui : Oblivious (parse_tui yaml node) := by
  apply oblivious_bind (oblivious_field ..)
  intro _
  apply oblivious_bind (oblivious_field ..)
  intro _
  exact oblivious_bind (oblivious_field ..) fun _ => oblivious_field ..

/-- The entries are appended to the handlers that are there. -/
theorem oblivious_handlers (done : List HandlerConfig) (items : List Node) :
    ObliviousOn (fun config => config.handlers_ = done) (forM items fun handler => do
      push_back (← ofExcept (parse_handler yaml handler))) := by
  induction items generalizing done with
  | nil => exact oblivious_pure ()
  | cons handler rest inductionHypothesis =>
    cases parsed : parse_handler yaml handler with
    | error what =>
      refine ⟨.error what, [], fun store _ => ?_⟩
      rw [List.forM_cons, run_bind, run_bind, parsed, run_ofExcept, writeAll_nil]
    | ok hc =>
      obtain ⟨outcome, writes, continues⟩ := inductionHypothesis (done ++ [hc])
      refine ⟨outcome, ⟨.handlers, done ++ [hc]⟩ :: writes, fun store same => ?_⟩
      rw [List.forM_cons, run_bind, run_bind, parsed, run_ofExcept]
      simp only [run_push_back, same]
      rw [continues _ rfl, writeAll_append, List.singleton_append]

/-- The list of handlers does not either, since it is cleared first. -/
theorem oblivious_parse_handlers : Oblivious (parse_handlers yaml node) := by
  cases entries : yaml.items node with
  | error what =>
    refine ⟨.error what, [⟨.handlers, []⟩], fun store _ => ?_⟩
    rw [parse_handlers, run_bind, run_assign]
    simp only
    rw [run_bind, entries, run_ofExcept]
  | ok items =>
    obtain ⟨outcome, writes, continues⟩ := oblivious_handlers yaml [] items
    refine ⟨outcome, ⟨.handlers, []⟩ :: writes, fun store _ => ?_⟩
    rw [parse_handlers, run_bind, run_assign]
    simp only
    rw [run_bind, entries, run_ofExcept]
    simp only
    rw [continues _ rfl, writeAll_append, List.singleton_append]

/-- What a document assigns, and how it ends, depends on the document alone. -/
theorem oblivious_parse : Oblivious (parse yaml node) := by
  apply oblivious_bind (oblivious_block _ _ _ (oblivious_parse_server yaml))
  intro _
  apply oblivious_bind (oblivious_block _ _ _ fun node => oblivious_field ..)
  intro _
  apply oblivious_bind (oblivious_block _ _ _ (oblivious_parse_channels yaml))
  intro _
  apply oblivious_bind (oblivious_block _ _ _ (oblivious_parse_liveliness yaml))
  intro _
  apply oblivious_bind (oblivious_block _ _ _ (oblivious_parse_tui yaml))
  intro _
  exact oblivious_block _ _ _ (oblivious_parse_handlers yaml)

end Documents

/-- The path of the file is no setting. -/
theorem get_config_path_ (config : Config) (path : String) (setting : Setting) :
    ({ config with config_path_ := path } : Config).get setting = config.get setting := by
  cases setting <;> rfl

/-- `use_defaults` touches no setting. -/
theorem get_use_defaults (config : Config) (setting : Setting) :
    (use_defaults config).get setting = config.get setting :=
  get_config_path_ config "" setting

/-- A load that reports the defaults has made the assignments of its document. -/
theorem load_defaults (yaml : Yaml Node) (config : Config) (config_path : String)
    (file : File Node) (reported : ReportsDefaults yaml config config_path file) :
    (load yaml config config_path file).2 =
      use_defaults (config.setAll (assignments yaml file)) := by
  cases file with
  | inaccessible what => simp [ReportsDefaults, load] at reported
  | missing => rfl
  | unreadable what => rfl
  | readable root =>
    obtain ⟨outcome, writes, runs⟩ := oblivious_parse yaml root
    have assigned : assignments yaml (.readable root) = writes := by
      rw [assignments, runs _ trivial]
      simp [Store.writeAll]
    rw [assigned]
    have failed := reported.resolve_left (by simp)
    simp only [load, runs _ trivial] at failed ⊢
    cases outcome with
    | ok value => simp at failed
    | error what =>
      apply config_ext
      · rfl
      · intro setting
        rw [get_use_defaults, get_use_defaults, Store.writeAll, get_setAll, get_setAll,
          get_config_path_]

/-- A load that reports the defaults leaves them exactly if each setting that its document
assigns got its default last, and each other setting had it before. -/
theorem load_restores_iff (yaml : Yaml Node) (config : Config) (config_path : String)
    (file : File Node) (reported : ReportsDefaults yaml config config_path file) :
    (load yaml config config_path file).2 = {} ↔
      ∀ setting, (lastAssigned setting (assignments yaml file)).getD (config.get setting) =
        Config.get {} setting := by
  rw [load_defaults yaml config config_path file reported]
  have settings : ∀ setting, (use_defaults (config.setAll (assignments yaml file))).get setting =
      (lastAssigned setting (assignments yaml file)).getD (config.get setting) := by
    intro setting
    rw [get_use_defaults, get_setAll]
  constructor
  · intro restored setting
    rw [← settings, restored]
  · intro defaults
    apply config_ext
    · rfl
    · intro setting
      rw [settings]
      exact defaults setting

section Examples

/-- A document. What a map lacks is undefined. -/
inductive Tree where
  | undefined
  | scalar (text : String)
  | map (entries : List (String × Tree))
  | sequence (items : List Tree)

/-- The library on these documents, for decimal numbers without a sign. -/
def treeYaml : Yaml Tree where
  subscript
    | .map entries, key => .ok ((entries.lookup key).getD .undefined)
    | .scalar _, _ => .error "operator[] call on a scalar"
    | _, _ => .ok .undefined
  defined
    | .undefined => false
    | _ => true
  asString
    | .scalar text => .ok text
    | _ => .error "bad conversion"
  asInt
    | .scalar text =>
        if text ≠ "" ∧ text.toList.all Char.isDigit then
          .ok (text.toList.foldl (fun value digit => 10 * value + (digit.toNat - 48)) 0 : Nat)
        else .error "bad conversion"
    | _ => .error "bad conversion"
  asBool
    | .scalar "true" => .ok true
    | .scalar "false" => .ok false
    | _ => .error "bad conversion"
  items
    | .sequence items => .ok items
    | _ => .ok []

/-- A document that names the server and gives the queue a size. -/
def document (name queue_size : String) : Tree :=
  .map [("server", .map [("name", .scalar name)]),
    ("channels", .map [("critical", .map [("queue_size", .scalar queue_size)])])]

/-- A throw behind a name that is the default one. -/
theorem sameName_restored :
    (load treeYaml {} "kernel.yaml" (.readable (document "FlowKernel" "many"))).2 = {} := by
  apply (load_restores_iff treeYaml {} "kernel.yaml" (.readable (document "FlowKernel" "many"))
    (.inr (by decide +kernel))).mpr
  intro setting
  cases setting <;> decide +kernel

/-- A throw behind another name, and a missing file after a whole one. -/
theorem otherName_survives :
    (load treeYaml {} "kernel.yaml" (.readable (document "Half" "many"))).1 = .returned false ∧
      (load treeYaml {} "kernel.yaml" (.readable (document "Half" "many"))).2 ≠ {} ∧
      (load treeYaml (load treeYaml {} "kernel.yaml" (.readable (document "Whole" "64"))).2
        "absent.yaml" .missing).2 ≠ {} := by
  decide +kernel

end Examples

end FlowKernel.Configuration
