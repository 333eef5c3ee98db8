/-
The configuration manager (common/src/config.rs): a configuration behind
a lock, and a watch channel that holds the last one sent.

Calls run concurrently. `update` validates, writes under the write lock
and sends behind it; `set_parameter` first takes a copy under the read
lock, changes it, and hands it to `update`. Every lock section and every
send is one step, so a run is an interleaving of the calls.
-/
import ChainLightning.Lib.Cell
import ChainLightning.Lib.Trace
import ChainLightning.Config

namespace ChainLightning

/-- A call that changes the configuration. -/
inductive ManagerCall where
  | update (newConfig : Config)
  | setParameter (path : String) (value : ParameterValue)

/-- Where a call stands: before its first section, behind its `get`,
before its send, or returned. -/
inductive CallPc where
  | start
  | fetched
  | notify (newConfig : Config)
  | returned (result : Except ConfigError Unit)

/-- The call has returned `Ok`. -/
def CallPc.isOk : CallPc → Bool
  | .returned (.ok ()) => true
  | _ => false

/-- The call is behind its write section. -/
def CallPc.wrote : CallPc → Bool
  | .notify _ => true
  | pc => pc.isOk

/-- The manager among the calls, which are numbered. The copies in the
cell are those that `set_parameter` works on; `watch` is the value in
the channel. The call that sent last is recorded about the run. -/
structure ConfigManager where
  config : Cell Nat Config
  watch : Config
  pc : Nat → CallPc
  lastSender : Option Nat

namespace ConfigManager

/-- `ConfigManager::new` and `ConfigManager::from_file`, with the
configuration they start from. -/
def new (config : Config) : ConfigManager where
  config := Cell.fresh config
  watch := config
  pc := fun _ => .start
  lastSender := none

/-- `get`. -/
def get (m : ConfigManager) : Config := m.config.value

/-- The call that wrote last. -/
def lastWriter (m : ConfigManager) : Option Nat := m.config.lineage.head?

/-- A call moves on. -/
def setPc (i : Nat) (pc : CallPc) (m : ConfigManager) : ConfigManager :=
  { m with pc := Function.update m.pc i pc }

/-- `update`, up to the release of the write lock. -/
def update (i : Nat) (newConfig : Config) (m : ConfigManager) :
    ConfigManager :=
  match newConfig.validate with
  | .error e => m.setPc i (.returned (.error e))
  | .ok () => { m.setPc i (.notify newConfig) with
      config := m.config.write i newConfig }

/-- The next step of a call. -/
def step (calls : List ManagerCall) (i : Nat) (m : ConfigManager) :
    Option ConfigManager :=
  match calls[i]?, m.pc i with
  | some (.update newConfig), .start => some (m.update i newConfig)
  | some (.setParameter _ _), .start =>
      some { m.setPc i .fetched with config := m.config.read i }
  | some (.setParameter path value), .fetched =>
      (m.config.copies i).map fun (config, _) =>
        match config.setParameter path value with
        | (.ok (), config) => m.update i config
        | (.error e, _) => m.setPc i (.returned (.error e))
  | some _, .notify newConfig =>
      some { m.setPc i (.returned (.ok ())) with
        watch := newConfig, lastSender := some i }
  | _, _ => none

end ConfigManager

end ChainLightning
