import Toolpath.Machine.Directive

/-!
# Operations

Between two resets a machine is used by operations: it processes records, one or many at once,
follows the directives of a record or a single one, and hands out its trace. Each record that it
processes pays it a visit, with the settings and the position that the record finds.
-/

namespace Toolpath

inductive Operation where
  | process (r : Record)
  | processAll (records : List Record)
  | applyDirectives (r : Record)
  | follow (d : Directive)
  | takeTrace
deriving DecidableEq

structure Visit where
  modal : Modal
  record : Record
deriving DecidableEq

namespace Machine

def perform (m : Machine) : Operation → Machine × List Segment
  | .process r => ((m.process r).1, (m.process r).2.toList)
  | .processAll records => m.processAll records
  | .applyDirectives r => ((m.applyDirectives r).1, [])
  | .follow d => (m.follow d, [])
  | .takeTrace => (m.takeTrace.1, [])

/-- The machine after operations, and all segments that they draw. -/
def performAll (m : Machine) : List Operation → Machine × List Segment
  | [] => (m, [])
  | op :: rest =>
    let (m, first) := m.perform op
    let (m, later) := m.performAll rest
    (m, first ++ later)

def visitsOfRecords (m : Machine) : List Record → List Visit
  | [] => []
  | r :: rest => ⟨m.modal, r⟩ :: (m.process r).1.visitsOfRecords rest

def visitsOf (m : Machine) : Operation → List Visit
  | .process r => m.visitsOfRecords [r]
  | .processAll records => m.visitsOfRecords records
  | _ => []

/-- The visits that records pay a machine in the course of operations. -/
def visits (m : Machine) : List Operation → List Visit
  | [] => []
  | op :: rest => m.visitsOf op ++ (m.perform op).1.visits rest

end Machine

end Toolpath
