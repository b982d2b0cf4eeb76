/-!
# Publishing the growth of a counter

A reader publishes how far a counter has grown since it last looked. It reads the
counter, subtracts the baseline kept from the last time, stores what it read as the
new baseline, and adds the difference to what is published, in portions. Reading
may take time: a reader that walks several counters and adds them up sees some of
their growth and misses some.

Left alone, the reader publishes all growth since the last reset, each unit once.
Somebody else may withdraw published units and store a baseline of their own. If
that baseline covers what has been subtracted so far, and does not exceed a reading
that is under way, no unit is published twice and no difference is negative.
-/

namespace Foundation

/-- Where the reader is: it has this much left to publish, it has read this value,
or it has also subtracted and is about to store the new baseline. -/
inductive MeterPhase where
  | publishing (rest : Nat)
  | seen (value : Nat)
  | subtracted (value fresh : Nat)

/-- `since` is the growth of the source since the last reset. -/
structure DeltaMeter where
  source : Nat
  since : Nat
  baseline : Nat
  published : Nat
  phase : MeterPhase

namespace DeltaMeter

/-- The reader, the source, and a reset while the reader is at rest. -/
inductive Step : DeltaMeter → DeltaMeter → Prop
  | rest {meter : DeltaMeter} : Step meter meter
  | grow {meter : DeltaMeter} :
      Step meter { meter with source := meter.source + 1, since := meter.since + 1 }
  | growAhead {meter : DeltaMeter} {value : Nat} (phase : meter.phase = .seen value) :
      Step meter { meter with
        source := meter.source + 1, since := meter.since + 1, phase := .seen (value + 1) }
  | look {meter : DeltaMeter} (phase : meter.phase = .publishing 0) :
      Step meter { meter with phase := .seen meter.source }
  | subtract {meter : DeltaMeter} {value : Nat} (phase : meter.phase = .seen value) :
      Step meter { meter with phase := .subtracted value (value - meter.baseline) }
  | commit {meter : DeltaMeter} {value fresh : Nat} (phase : meter.phase = .subtracted value fresh) :
      Step meter { meter with baseline := value, phase := .publishing fresh }
  | publish {meter : DeltaMeter} {amount rest : Nat}
      (phase : meter.phase = .publishing (amount + rest)) :
      Step meter { meter with published := meter.published + amount, phase := .publishing rest }
  | reset {meter : DeltaMeter} (phase : meter.phase = .publishing 0) :
      Step meter { meter with since := 0, baseline := meter.source, published := 0 }

/-- A baseline that may be stored over the reader's. -/
def Accepts (meter : DeltaMeter) (baseline : Nat) : Prop :=
  match meter.phase with
  | .publishing rest => meter.published + rest ≤ baseline
  | .seen value => meter.published ≤ baseline ∧ baseline ≤ value
  | .subtracted _ _ => True

/-- The readings can be compared. -/
instance (baseline : Nat) : ∀ meter : DeltaMeter, Decidable (meter.Accepts baseline)
  | ⟨_, _, _, published, .publishing rest⟩ =>
      inferInstanceAs (Decidable (published + rest ≤ baseline))
  | ⟨_, _, _, published, .seen value⟩ =>
      inferInstanceAs (Decidable (published ≤ baseline ∧ baseline ≤ value))
  | ⟨_, _, _, _, .subtracted _ _⟩ => isTrue trivial

/-- What others do to the meter. -/
inductive Interference : DeltaMeter → DeltaMeter → Prop
  | withdraw {meter : DeltaMeter} {left : Nat} (less : left ≤ meter.published) :
      Interference meter { meter with published := left }
  | rebase {meter : DeltaMeter} {baseline : Nat} (behind : baseline ≤ meter.source)
      (accepted : meter.Accepts baseline) :
      Interference meter { meter with baseline := baseline }

/-- Published units and units about to be published lie below the baseline, a
reading above it, and neither exceeds the source. -/
def Sound (meter : DeltaMeter) : Prop :=
  match meter.phase with
  | .publishing rest =>
      meter.published + rest ≤ meter.baseline ∧ meter.baseline ≤ meter.source
  | .seen value =>
      meter.published ≤ meter.baseline ∧ meter.baseline ≤ value ∧ value ≤ meter.source
  | .subtracted value fresh => meter.published + fresh ≤ value ∧ value ≤ meter.source

/-- All growth since the last reset is published, about to be, or still ahead of
the baseline. -/
def Balanced (meter : DeltaMeter) : Prop :=
  match meter.phase with
  | .publishing rest =>
      meter.published + rest + meter.source = meter.since + meter.baseline
  | .seen _ => meter.published + meter.source = meter.since + meter.baseline
  | .subtracted value fresh => meter.published + fresh + meter.source = meter.since + value

variable {meter next : DeltaMeter}

/-- Every step of the meter keeps the readings in order. -/
theorem sound_step (sound : meter.Sound) (step : Step meter next) : next.Sound := by
  cases step with
  | rest => exact sound
  | grow =>
    cases phase : meter.phase with
    | publishing rest =>
      simp only [Sound, phase] at sound ⊢
      omega
    | seen value =>
      simp only [Sound, phase] at sound ⊢
      omega
    | subtracted value fresh =>
      simp only [Sound, phase] at sound ⊢
      omega
  | growAhead phase =>
    simp only [Sound, phase] at sound ⊢
    omega
  | look phase =>
    simp only [Sound, phase] at sound ⊢
    omega
  | subtract phase =>
    simp only [Sound, phase] at sound ⊢
    omega
  | commit phase =>
    simp only [Sound, phase] at sound ⊢
    omega
  | publish phase =>
    simp only [Sound, phase] at sound ⊢
    omega
  | reset phase =>
    simp [Sound, phase]

/-- Whatever else happens keeps them in order. -/
theorem sound_interference (sound : meter.Sound) (step : Interference meter next) :
    next.Sound := by
  cases step with
  | withdraw less =>
    cases phase : meter.phase with
    | publishing rest =>
      simp only [Sound, phase] at sound ⊢
      omega
    | seen value =>
      simp only [Sound, phase] at sound ⊢
      omega
    | subtracted value fresh =>
      simp only [Sound, phase] at sound ⊢
      omega
  | rebase behind accepted =>
    cases phase : meter.phase with
    | publishing rest =>
      simp only [Sound, Accepts, phase] at sound accepted ⊢
      omega
    | seen value =>
      simp only [Sound, Accepts, phase] at sound accepted ⊢
      omega
    | subtracted value fresh =>
      simp only [Sound, phase] at sound ⊢
      exact sound

/-- Every step of the meter keeps its balance. -/
theorem balanced_step (sound : meter.Sound) (balanced : meter.Balanced)
    (step : Step meter next) : next.Balanced := by
  cases step with
  | rest => exact balanced
  | grow =>
    cases phase : meter.phase with
    | publishing rest =>
      simp only [Balanced, phase] at balanced ⊢
      omega
    | seen value =>
      simp only [Balanced, phase] at balanced ⊢
      omega
    | subtracted value fresh =>
      simp only [Balanced, phase] at balanced ⊢
      omega
  | growAhead phase =>
    simp only [Balanced, phase] at balanced ⊢
    omega
  | look phase =>
    simp only [Balanced, phase] at balanced ⊢
    omega
  | subtract phase =>
    simp only [Sound, Balanced, phase] at sound balanced ⊢
    omega
  | commit phase =>
    simp only [Balanced, phase] at balanced ⊢
    omega
  | publish phase =>
    simp only [Balanced, phase] at balanced ⊢
    omega
  | reset phase =>
    simp [Balanced, phase]

/-- No more is ever published than the source has grown. -/
theorem Sound.published_le (sound : meter.Sound) : meter.published ≤ meter.source := by
  cases phase : meter.phase with
  | publishing rest =>
    simp only [Sound, phase] at sound
    omega
  | seen value =>
    simp only [Sound, phase] at sound
    omega
  | subtracted value fresh =>
    simp only [Sound, phase] at sound
    omega

end DeltaMeter

end Foundation
