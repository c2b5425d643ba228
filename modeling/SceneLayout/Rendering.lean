import SceneLayout.Log
import SceneLayout.Markup.Svg
import SceneLayout.Scene.Compile
import SceneLayout.Tree.Declared

/-!
# From declarations to drawings

A declared value is read as a tree, compiled to a scene of machine doubles, laid out
and drawn. Each step also gives what it reports.
-/

namespace SceneLayout

/-- Why a declaration has no drawing. A slot outside the buffer cannot come from a tree. -/
inductive RenderError where
  | declaration (error : DeclarationError)
  | compile (error : CompileError)
  | slot (error : SlotError)

/-- What the drawing of a scene depends on beside the scene. -/
structure Rendering where
  margin : Float
  settings : Settings Float

namespace Rendering

/-- No margin and the standard settings. -/
def standard : Rendering := ⟨Scalar.nat 0, .standard⟩

end Rendering

/-- The scene of a tree in machine doubles. -/
def Tree.scene (tree : Tree Binary64) : Except CompileError (Scene Float) :=
  (tree.map Binary64.toFloat).compile

/-- The scene that a value declares. -/
def Scene.ofJson (value : Json) : Except RenderError (Scene Float) :=
  match Tree.ofJson? value with
  | .error error => .error (.declaration error)
  | .ok tree => tree.scene.mapError .compile

/-- The events before a scene is laid out. The dependencies are looked at only if a run is
verbose. -/
def Scene.eventsBefore (verbose : Bool) (scene : Scene Float) : Except SlotError (List Event) :=
  if verbose then (Dependency.ofScene scene).map fun dependency => [.ofDependency dependency]
  else .ok []

/-- A layout of a scene and the events of laying it out. -/
def Scene.solveReporting (verbose : Bool) (settings : Settings Float) (scene : Scene Float) :
    Except SlotError (Solution Float × List Event) := do
  let before ← scene.eventsBefore verbose
  let solution ← scene.solve settings
  return (solution, before ++ [solution.stats.event])

/-- The document of a scene. -/
def Scene.document (rendering : Rendering) (scene : Scene Float) :
    Except SlotError (Document Float) := do
  let solution ← scene.solve rendering.settings
  return solution.layout.document scene.records rendering.margin

/-- The SVG text of a declared value. -/
def renderJson (rendering : Rendering) (value : Json) : Except RenderError String :=
  match Scene.ofJson value with
  | .error error => .error error
  | .ok scene => ((scene.document rendering).map Document.svg).mapError .slot

end SceneLayout
