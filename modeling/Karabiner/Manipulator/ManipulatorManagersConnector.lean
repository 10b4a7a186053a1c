import Karabiner.Manipulator.ManipulatorManager

/-!
# The chain of manipulator managers

`share/manipulator/manipulator_managers_connector.hpp` and `device_grabber::manipulate`.  The output
queue of a connection is the input queue of the next one, so a chain is a list of stages, each with
its input queue, and the output queue of the last one (`posted_event_queue_`).

* `Connection.manipulateWhileProcessed` — the loop of `connection::manipulate`.
* `ManipulatorManagersConnector.round` — one call of `device_grabber::manipulate`.
-/

namespace Karabiner

/-- `event_queue::queue::clear_events`. -/
def Queue.clearEvents (q : Queue) : Queue := { q with events := [], timeStampDelay := 0 }

/-- A connection of the chain without its output queue. -/
structure Stage where
  input : Queue := {}
  manager : ManipulatorManager := {}
  processed : List Entry := []

variable [Exprtk]

/-- `manipulator_managers_connector`: the connections and the output queue of the last one. -/
structure ManipulatorManagersConnector where
  stages : List Stage
  output : Output

/-- The connection of a stage with an output queue. -/
def Stage.connect (s : Stage) (output : Output) : Connection :=
  ⟨s.input, s.manager, output, s.processed⟩

/-- The stage of a connection. -/
def Connection.stage (c : Connection) : Stage := ⟨c.input, c.manager, c.processed⟩

variable [SystemClock] [MachTimebase]

namespace Connection

/-- What `manipulator_manager::manipulate` returns: whether an entry has been processed. -/
def processes (c : Connection) (now : AbsoluteTime) : Bool :=
  match c.input.events with
  | [] => false
  | front :: rest => !(c.handleFront front rest now).waits

/-- The loop of `connection::manipulate`, with at most `fuel` repetitions. -/
def manipulateLoop (now : AbsoluteTime) (reorder : Bool) : ℕ → Connection → Connection
  | 0, c => c.manipulate now reorder
  | fuel + 1, c =>
    if c.processes now then manipulateLoop now reorder fuel (c.manipulate now reorder)
    else c.manipulate now reorder

/-- `connection::manipulate`.  A repetition processes an entry of the input queue. -/
def manipulateWhileProcessed (c : Connection) (now : AbsoluteTime) (reorder : Bool) : Connection :=
  manipulateLoop now reorder c.input.events.length c

end Connection

/-- The loop of `manipulator_managers_connector::manipulate` from a stage on: the stages and the
output queue of the last one. -/
def Stage.manipulateFrom (now : AbsoluteTime) (reorder : Bool) :
    Stage → List Stage → Output → List Stage × Output
  | s, [], output =>
    let c := (s.connect output).manipulateWhileProcessed now reorder
    ([c.stage], c.output)
  | s, t :: ts, output =>
    let c := (s.connect ⟨t.input, output.world⟩).manipulateWhileProcessed now reorder
    let (stages, output) :=
      manipulateFrom now reorder { t with input := c.output.queue } ts
        ⟨output.queue, c.output.world⟩
    (c.stage :: stages, output)

omit [Exprtk] [SystemClock] [MachTimebase] in
/-- `make_input_event_time_stamp_with_input_delay`. -/
def Stage.inputEventTimeStamp (s : Stage) : Option AbsoluteTime :=
  s.input.events.head?.map fun front => front.eventTimeStamp.makeTimeStampWithInputDelay

namespace ManipulatorManagersConnector

/-- `manipulate`. -/
def manipulate (m : ManipulatorManagersConnector) (now : AbsoluteTime) (reorder : Bool) :
    ManipulatorManagersConnector :=
  match m.stages with
  | [] => m
  | s :: stages =>
    let (stages, output) := s.manipulateFrom now reorder stages m.output
    ⟨stages, output⟩

omit [SystemClock] [MachTimebase] in
/-- `min_input_event_time_stamp`. -/
def minInputEventTimeStamp (m : ManipulatorManagersConnector) : Option AbsoluteTime :=
  m.stages.foldl
    (fun result s =>
      match s.inputEventTimeStamp, result with
      | none, _ => result
      | some t, none => some t
      | some t, some r => if t < r then some t else result) none

/-- One call of `device_grabber::manipulate`, with the setting
`reorder_same_timestamp_input_events_to_prioritize_modifiers`. -/
def round (m : ManipulatorManagersConnector) (now : AbsoluteTime) (reorder : Bool) :
    ManipulatorManagersConnector :=
  let m := m.manipulate now reorder
  { m with output.queue := m.output.queue.clearEvents }

/-- The chain after some calls of `device_grabber::manipulate`. -/
def after (m : ManipulatorManagersConnector) (calls : ℕ → AbsoluteTime × Bool) :
    ℕ → ManipulatorManagersConnector
  | 0 => m
  | n + 1 => (after m calls n).round (calls n).1 (calls n).2

end ManipulatorManagersConnector

end Karabiner
