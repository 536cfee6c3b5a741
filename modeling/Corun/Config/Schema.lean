import Corun.Config.Basic
import Corun.Json.Schema

namespace Corun.Config
open Json (Record Schema)

namespace BenchmarkEntry

inductive Field where
  | name
  | command
deriving DecidableEq

def record : Record Field fun _ => String where
  name := "BenchmarkConfig"
  fields := [.name, .command]
  fieldName
    | .name => "name"
    | .command => "cmd"
  default _ := none
  all f := by cases f <;> decide
  distinct := by decide

def schema : Schema BenchmarkEntry :=
  .record record (fun _ => .text) fun x => ⟨x .name, x .command⟩

end BenchmarkEntry

namespace Manager

inductive Field where
  | kind
  | killMode
  | timeLimit
  | benchmarks
deriving DecidableEq

abbrev Field.Content : Field → Type
  | kind => String
  | killMode => Child.KillMode
  | timeLimit => Option Nat
  | benchmarks => List BenchmarkEntry

def record : Record Field Field.Content where
  name := "ManagerConfig"
  fields := [.kind, .killMode, .timeLimit, .benchmarks]
  fieldName
    | .kind => "type"
    | .killMode => "kill_mode"
    | .timeLimit => "time_limit"
    | .benchmarks => "benchmarks"
  default
    | .kind => some simpleManager
    | .killMode => some .single
    | .timeLimit => some none
    | .benchmarks => none
  all f := by cases f <;> decide
  distinct := by decide

def killModes : List (String × Child.KillMode) :=
  [Child.KillMode.single, .tree].map fun m => (m.name, m)

def fieldSchema : (f : Field) → Schema f.Content
  | .kind => .text
  | .killMode => .choice killModes
  | .timeLimit => .optional (.natural "u64")
  | .benchmarks => .list BenchmarkEntry.schema

def schema : Schema Manager :=
  .record record fieldSchema fun x => ⟨x .kind, x .killMode, x .timeLimit, x .benchmarks⟩

end Manager

namespace Monitor

inductive Field where
  | kind
  | samplingLength
  | backend
  | readMode
  | attach
  | cpus
deriving DecidableEq

abbrev Field.Content : Field → Type
  | kind => String
  | samplingLength => Nat
  | backend => Option String
  | readMode => Counter.Mode
  | attach => Bool
  | cpus => Option (List Nat)

def record : Record Field Field.Content where
  name := "MonitorConfig"
  fields := [.kind, .samplingLength, .backend, .readMode, .attach, .cpus]
  fieldName
    | .kind => "type"
    | .samplingLength => "sampling_length"
    | .backend => "event"
    | .readMode => "read_mode"
    | .attach => "attach"
    | .cpus => "cpus"
  default
    | .kind => some Monitor.default.kind
    | .samplingLength => some Monitor.default.samplingLength
    | .backend => some Monitor.default.backend
    | .readMode => some Monitor.default.readMode
    | .attach => some Monitor.default.attach
    | .cpus => some Monitor.default.cpus
  all f := by cases f <;> decide
  distinct := by decide

def readModes : List (String × Counter.Mode) :=
  [Counter.Mode.relative, .aggregated].map fun m => (m.name, m)

def fieldSchema : (f : Field) → Schema f.Content
  | .kind => .text
  | .samplingLength => .natural "u64"
  | .backend => .optional .text
  | .readMode => .choice readModes
  | .attach => .truth
  | .cpus => .optional (.list (.natural "usize"))

def schema : Schema Monitor :=
  .record record fieldSchema fun x =>
    ⟨x .kind, x .samplingLength, x .backend, x .readMode, x .attach, x .cpus⟩

end Monitor

inductive Field where
  | manager
  | monitor
deriving DecidableEq

abbrev Field.Content : Field → Type
  | manager => Manager
  | monitor => Monitor

def record : Record Field Field.Content where
  name := "Config"
  fields := [.manager, .monitor]
  fieldName
    | .manager => "exec_manager"
    | .monitor => "exec_monitor"
  default
    | .manager => none
    | .monitor => some Monitor.default
  all f := by cases f <;> decide
  distinct := by decide

def fieldSchema : (f : Field) → Schema f.Content
  | .manager => Manager.schema
  | .monitor => Monitor.schema

def schema : Schema Config := .record record fieldSchema fun x => ⟨x .manager, x .monitor⟩

end Corun.Config
