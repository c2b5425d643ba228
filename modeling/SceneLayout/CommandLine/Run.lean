import SceneLayout.CommandLine.Arguments
import SceneLayout.CommandLine.Files
import SceneLayout.Rendering
import SceneLayout.Text.ControlSequence

/-!
# Running the program

A run reads a declaration, draws it and writes the drawing. It ends with 0 if the
drawing is written, with 1 if the declaration cannot be read or drawn or the drawing
cannot be written, and with 2 if the arguments are wrong. What it reports goes to the
error output, before any error.
-/

namespace SceneLayout.CommandLine

/-- How a run has ended. -/
structure Outcome where
  code : Nat
  output : String
  errors : String

/-- Text as it is shown where there is no terminal: without control sequences, and with line feeds
alone as the ends of its lines. -/
def plainText (text : String) : String :=
  (withoutControlSequences text).replace "\r\n" "\n"

/-- The outcome as it is shown where there is no terminal. -/
def Outcome.plain (outcome : Outcome) : Outcome :=
  { outcome with output := plainText outcome.output, errors := plainText outcome.errors }

/-- The text that explains the arguments. -/
def helpText : String :=
  "Usage: main [OPTIONS] [INPUT] [OUTPUT]\n\n" ++
  "  Render a JSON scene tree to SVG.\n\n" ++
  "Options:\n" ++
  "  -m, --margin FLOAT        Blank space around the drawing\n" ++
  "  --max-iterations INTEGER  Solver pass budget (default 100)\n" ++
  "  --epsilon FLOAT           Convergence threshold (default 1e-6)\n" ++
  "  --damping FLOAT           Blend factor in (0, 1] (default 0.5)\n" ++
  "  -v, --verbose             Log solver progress to stderr\n" ++
  "  --help                    Show this message and exit.\n"

/-- The text for wrong arguments. -/
def misuseText : String :=
  "Usage: main [OPTIONS] [INPUT] [OUTPUT]\nTry 'main --help' for help.\n"

/-- The message of a declaration without a drawing. -/
def errorMessage : RenderError → String
  | .declaration error => error.message
  | .compile error => error.message
  | .slot error => "slot " ++ toString error.slot ++ " is outside the buffer"

/-- What the drawing depends on, from the options. -/
def Options.rendering (options : Options) : Rendering where
  margin := options.margin.toFloat
  settings := Settings.standard.override options.budget
    (options.epsilon.map Binary64.toFloat) (options.damping.map Binary64.toFloat)

/-- Draws a declared text; gives what there is to report beside the drawing. -/
def Options.draw (options : Options) (text : String) : List Event × Except RenderError String :=
  let rendering := options.rendering
  match Scene.ofJson (.string text) with
  | .error error => ([], .error error)
  | .ok scene =>
      let compiled := Event.ofScene scene
      match scene.solveReporting options.verbose rendering.settings with
      | .error error => ([compiled], .error (.slot error))
      | .ok (solution, events) =>
          let document := solution.layout.document scene.records rendering.margin
          (compiled :: events, .ok document.svg)

/-- The reported lines; a run that is not verbose gives the bare messages. -/
def Options.report (options : Options) (events : List Event) : String :=
  String.join <| (reported options.verbose events).map fun event =>
    (if options.verbose then event.line else event.message) ++ "\n"

/-- A run that has failed with a message after what it reported. -/
def Outcome.failure (report message : String) : Outcome :=
  ⟨1, "", report ++ "error: " ++ message ++ "\n"⟩

/-- A run that has failed because of a file; not every such error has a message. -/
def Outcome.fileFailure (report deed path : String) (error : FileError) : Outcome :=
  match error.message? path with
  | some message => .failure report ("cannot " ++ deed ++ " '" ++ path ++ "': " ++ message)
  | none => ⟨1, "", report⟩

section Run

variable {m : Type → Type} [Monad m]

/-- Reads, draws and writes. -/
def Options.run (options : Options) (access : FileAccess m) : m Outcome := do
  let text ← if options.input = "-" then Except.ok <$> access.standardInput
    else access.read options.input
  match text with
  | .error error => return .fileFailure "" "read" options.input error
  | .ok text =>
      let (events, drawing) := options.draw text
      let report := options.report events
      match drawing with
      | .error error => return .failure report (errorMessage error)
      | .ok svg =>
          match options.output.filter fun path => path != "" && path != "-" with
          | none => return ⟨0, svg ++ "\n", report⟩
          | some path =>
              match ← access.write path svg with
              | .ok () => return ⟨0, "", report⟩
              | .error error => return .fileFailure report "write" path error

/-- Runs the program on its arguments. -/
def run (access : FileAccess m) (arguments : List String) : m Outcome :=
  match Request.ofArguments arguments with
  | .help => return ⟨0, helpText, ""⟩
  | .misuse => return ⟨2, "", misuseText⟩
  | .draw options => options.run access

end Run

end SceneLayout.CommandLine
