import SceneLayout.Dependency
import SceneLayout.Layout
import SceneLayout.Number.Double
import SceneLayout.Number.Written

/-!
# What a run reports

The events of compiling and laying out a scene, each with its level, the channel
it is reported on, and its message. Only a relaxation that runs out of budget is a
warning.
-/

namespace SceneLayout

/-- How much an event matters. -/
inductive Level where
  | debug
  | warning
deriving DecidableEq

namespace Level

/-- The name in front of a reported line. -/
def name : Level → String
  | debug => "DEBUG"
  | warning => "WARNING"

end Level

/-- Something that a run reports. -/
inductive Event where
  | compiled (records operators : Nat)
  | feedback (groups : List (List Nat))
  | acyclic (operators : Nat)
  | settled (passes : Nat) (residual : Binary64)
  | outOfBudget (passes : Nat) (residual : Binary64)

namespace Event

/-- The level of an event. -/
def level : Event → Level
  | outOfBudget .. => .warning
  | _ => .debug

/-- The channel that an event is reported on. -/
def channel : Event → String
  | compiled .. => "modular_svg.ir.builder"
  | _ => "modular_svg.layout.solver"

/-- Groups of numbers in brackets. -/
def groupsText (groups : List (List Nat)) : String :=
  bracketed (groups.map fun group => bracketed (group.map toString))
where
  bracketed (items : List String) : String := "[" ++ ", ".intercalate items ++ "]"

/-- The message of an event. -/
def message : Event → String
  | compiled records operators =>
      "built scene: " ++ toString records ++ " nodes, " ++ toString operators ++ " operators"
  | feedback groups => "operators feed each other: " ++ groupsText groups
  | acyclic operators => "operator graph is acyclic (" ++ toString operators ++ " operators)"
  | settled passes residual =>
      "converged after " ++ toString passes ++ " passes (residual " ++
        residual.writtenBriefly ++ ")"
  | outOfBudget passes residual =>
      "layout did not converge after " ++ toString passes ++ " passes (residual " ++
        residual.writtenBriefly ++ "); using best effort"

/-- The whole line of an event. -/
def line (event : Event) : String :=
  event.level.name ++ " " ++ event.channel ++ ": " ++ event.message

/-- The event of a compiled scene. -/
def ofScene {α : Type} (scene : Scene α) : Event :=
  .compiled scene.records.length scene.operators.length

/-- The event of the dependencies among operators. -/
def ofDependency (dependency : Dependency) : Event :=
  match dependency.operators.feedback with
  | [] => .acyclic dependency.operators.size
  | groups => .feedback groups

end Event

namespace Stats

/-- The residual as a double; before the first pass it is infinite. -/
def residualDouble (stats : Stats Float) : Binary64 :=
  match stats.residual with
  | some residual => .ofFloat residual
  | none => .infinity false

/-- The event of a relaxation that has ended. -/
def event (stats : Stats Float) : Event :=
  if stats.converged then .settled stats.passes stats.residualDouble
  else .outOfBudget stats.passes stats.residualDouble

end Stats

/-- The events that are reported: all of them if a run is verbose, else the warnings. -/
def reported (verbose : Bool) (events : List Event) : List Event :=
  if verbose then events else events.filter fun event => event.level == .warning

end SceneLayout
