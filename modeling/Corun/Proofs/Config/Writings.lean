import Corun.Config.Schema
import Corun.Proofs.Json.Records

namespace Corun.Config
open Json (Value Outline Library Numeral Number Fault IsOptional IsList IsChoice)

variable {lib : Library} {number : Numeral → Except Fault Number} {depth : Nat}

namespace BenchmarkEntry

variable {b : BenchmarkEntry} {v : Value}

def outline : Outline Field where
  fields := [.name, .command]
  name
    | .name => "name"
    | .command => "cmd"
  isRequired _ := true

/-- What may stand for a field. -/
def Holds (b : BenchmarkEntry) : Field → Value → Prop
  | .name, v => v = .string b.name
  | .command, v => v = .string b.command

def WrittenAs (b : BenchmarkEntry) (v : Value) : Prop := outline.Writes b.Holds (fun _ => False) v

theorem record_follows : record.Follows outline where
  fields := rfl
  name := by funext f; cases f <;> rfl
  isRequired f := by cases f <;> rfl

def content (b : BenchmarkEntry) : Field → String
  | .name => b.name
  | .command => b.command

theorem conveys (hd : lib.Decodes) (h : b.WrittenAs v) :
    lib.Conveys number (depth + 1) schema v b := by
  refine hd.record_conveys (x := b.content) record_follows (fun f w hw => ?_) nofun h
  cases f <;> obtain rfl := hw <;> exact hd.text_conveys _

end BenchmarkEntry

namespace Manager

variable {m : Manager} {v : Value}

def outline : Outline Field where
  fields := [.kind, .killMode, .timeLimit, .benchmarks]
  name
    | .kind => "type"
    | .killMode => "kill_mode"
    | .timeLimit => "time_limit"
    | .benchmarks => "benchmarks"
  isRequired
    | .benchmarks => true
    | _ => false

/-- What may stand for a field. -/
def Holds (m : Manager) : Field → Value → Prop
  | .kind, v => v = .string m.kind
  | .killMode, v => IsChoice m.killMode.name v
  | .timeLimit, v => IsOptional (fun t v => v = .number (.ofNat t)) m.timeLimit v
  | .benchmarks, v => IsList BenchmarkEntry.WrittenAs m.benchmarks v

/-- The fields that hold their defaults. -/
def Spared (m : Manager) : Field → Prop
  | .kind => m.kind = "simple"
  | .killMode => m.killMode = .single
  | .timeLimit => m.timeLimit = none
  | .benchmarks => False

def WrittenAs (m : Manager) (v : Value) : Prop := outline.Writes m.Holds m.Spared v

/-- Times are words. -/
def Fits (m : Manager) : Prop := ∀ t ∈ m.timeLimit, t < UInt64.size

theorem record_follows : record.Follows outline where
  fields := rfl
  name := by funext f; cases f <;> rfl
  isRequired f := by cases f <;> rfl

def content (m : Manager) : (f : Field) → f.Content
  | .kind => m.kind
  | .killMode => m.killMode
  | .timeLimit => m.timeLimit
  | .benchmarks => m.benchmarks

theorem spared_default (f : Field) (h : m.Spared f) : record.default f = some (m.content f) := by
  cases f with
  | benchmarks => exact h.elim
  | kind | killMode | timeLimit => exact congrArg some h.symm

theorem timeLimit_conveys (hd : lib.Decodes) (hr : lib.Reads number) (hm : m.Fits)
    (h : m.Holds .timeLimit v) :
    lib.Conveys number depth (.optional (.natural "u64")) v m.timeLimit := by
  refine hd.optional_conveys (fun t ht hnull => ?_) (fun t ht w hw => ?_) h
  · cases (hd.natural (hm t ht)).mp hnull
  · obtain rfl := hw
    exact hd.natural_conveys hr "u64" (hm t ht)

theorem conveys (hd : lib.Decodes) (hr : lib.Reads number) (hm : m.Fits) (h : m.WrittenAs v) :
    lib.Conveys number (depth + 3) schema v m := by
  refine hd.record_conveys (x := m.content) record_follows (fun f w hw => ?_) spared_default h
  cases f with
  | kind =>
    obtain rfl := hw
    exact hd.text_conveys _
  | killMode =>
    have hname : killModes.lookup m.killMode.name = some m.killMode := by cases m.killMode <;> rfl
    exact hd.choice_conveys hname hw
  | timeLimit => exact timeLimit_conveys hd hr hm hw
  | benchmarks => exact hd.list_conveys (fun _ _ _ => BenchmarkEntry.conveys hd) hw

end Manager

namespace Monitor

variable {m : Monitor} {v : Value}

def outline : Outline Field where
  fields := [.kind, .samplingLength, .backend, .readMode, .attach, .cpus]
  name
    | .kind => "type"
    | .samplingLength => "sampling_length"
    | .backend => "event"
    | .readMode => "read_mode"
    | .attach => "attach"
    | .cpus => "cpus"
  isRequired _ := false

/-- What may stand for a field. -/
def Holds (m : Monitor) : Field → Value → Prop
  | .kind, v => v = .string m.kind
  | .samplingLength, v => v = .number (.ofNat m.samplingLength)
  | .backend, v => IsOptional (fun b v => v = .string b) m.backend v
  | .readMode, v => IsChoice m.readMode.name v
  | .attach, v => v = .bool m.attach
  | .cpus, v => IsOptional (IsList fun c v => v = .number (.ofNat c)) m.cpus v

/-- The fields that hold their defaults. -/
def Spared (m : Monitor) : Field → Prop
  | .kind => m.kind = "simple"
  | .samplingLength => m.samplingLength = 1000
  | .backend => m.backend = none
  | .readMode => m.readMode = .relative
  | .attach => m.attach = true
  | .cpus => m.cpus = none

def WrittenAs (m : Monitor) (v : Value) : Prop := outline.Writes m.Holds m.Spared v

/-- Lengths and processors are words. -/
structure Fits (m : Monitor) : Prop where
  samplingLength : m.samplingLength < UInt64.size
  cpus : ∀ cs ∈ m.cpus, ∀ c ∈ cs, c < UInt64.size

theorem record_follows : record.Follows outline where
  fields := rfl
  name := by funext f; cases f <;> rfl
  isRequired f := by cases f <;> rfl

def content (m : Monitor) : (f : Field) → f.Content
  | .kind => m.kind
  | .samplingLength => m.samplingLength
  | .backend => m.backend
  | .readMode => m.readMode
  | .attach => m.attach
  | .cpus => m.cpus

theorem spared_default (f : Field) (h : m.Spared f) : record.default f = some (m.content f) := by
  cases f <;> exact congrArg some h.symm

theorem backend_conveys (hd : lib.Decodes) (h : m.Holds .backend v) :
    lib.Conveys number depth (.optional .text) v m.backend := by
  refine hd.optional_conveys (fun b _ hnull => ?_) (fun b _ w hw => ?_) h
  · cases hd.text.mp hnull
  · obtain rfl := hw
    exact hd.text_conveys b

theorem cpus_conveys (hd : lib.Decodes) (hr : lib.Reads number) (hm : m.Fits)
    (h : m.Holds .cpus v) :
    lib.Conveys number (depth + 1) (.optional (.list (.natural "usize"))) v m.cpus := by
  refine hd.optional_conveys (fun cs _ hnull => ?_) (fun cs hcs w hw => ?_) h
  · obtain ⟨ds, hds, -⟩ := hd.list.mp hnull
    cases hds
  · refine hd.list_conveys (fun c hc u hu => ?_) hw
    obtain rfl := hu
    exact hd.natural_conveys hr "usize" (hm.cpus cs hcs c hc)

theorem conveys (hd : lib.Decodes) (hr : lib.Reads number) (hm : m.Fits) (h : m.WrittenAs v) :
    lib.Conveys number (depth + 2) schema v m := by
  refine hd.record_conveys (x := m.content) record_follows (fun f w hw => ?_) spared_default h
  cases f with
  | kind =>
    obtain rfl := hw
    exact hd.text_conveys _
  | samplingLength =>
    obtain rfl := hw
    exact hd.natural_conveys hr "u64" hm.samplingLength
  | backend => exact backend_conveys hd hw
  | readMode =>
    have hname : readModes.lookup m.readMode.name = some m.readMode := by cases m.readMode <;> rfl
    exact hd.choice_conveys hname hw
  | attach =>
    obtain rfl := hw
    exact hd.truth_conveys _
  | cpus => exact cpus_conveys hd hr hm hw

theorem eq_default (h : ∀ f, m.Spared f) : m = Monitor.default := by
  obtain ⟨kind, samplingLength, backend, readMode, attach, cpus⟩ := m
  obtain rfl := h .kind
  obtain rfl := h .samplingLength
  obtain rfl := h .backend
  obtain rfl := h .readMode
  obtain rfl := h .attach
  obtain rfl := h .cpus
  rfl

end Monitor

variable {c : Config} {v : Value}

def outline : Outline Field where
  fields := [.manager, .monitor]
  name
    | .manager => "exec_manager"
    | .monitor => "exec_monitor"
  isRequired
    | .manager => true
    | .monitor => false

/-- What may stand for a field. -/
def Holds (c : Config) : Field → Value → Prop
  | .manager, v => c.manager.WrittenAs v
  | .monitor, v => c.monitor.WrittenAs v

/-- A monitor with nothing but defaults may be left out. -/
def Spared (c : Config) : Field → Prop
  | .manager => False
  | .monitor => ∀ f, c.monitor.Spared f

/-- What documents say so. -/
def WrittenAs (c : Config) (v : Value) : Prop := outline.Writes c.Holds c.Spared v

/-- Every number in it is a word. -/
structure Fits (c : Config) : Prop where
  manager : c.manager.Fits
  monitor : c.monitor.Fits

theorem record_follows : record.Follows outline where
  fields := rfl
  name := by funext f; cases f <;> rfl
  isRequired f := by cases f <;> rfl

def content (c : Config) : (f : Field) → f.Content
  | .manager => c.manager
  | .monitor => c.monitor

theorem spared_default (f : Field) (h : c.Spared f) : record.default f = some (c.content f) := by
  cases f with
  | manager => exact h.elim
  | monitor => exact congrArg some (Monitor.eq_default h).symm

/-- However a configuration is written, it is decoded. -/
theorem conveys (hd : lib.Decodes) (hr : lib.Reads number) (hc : c.Fits) (h : c.WrittenAs v) :
    lib.Conveys number (depth + 4) schema v c := by
  refine hd.record_conveys (x := c.content) record_follows (fun f w hw => ?_) spared_default h
  cases f with
  | manager => exact Manager.conveys hd hr hc.manager hw
  | monitor => exact Monitor.conveys hd hr hc.monitor hw

end Corun.Config
