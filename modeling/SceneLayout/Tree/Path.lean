/-!
# Places in a tree

A node is named by the child indexes that lead to it from the root. The place of
the root has a text of its own, `0` unless told otherwise.
-/

namespace SceneLayout

/-- A place in a tree: the text of the root and the child indexes from there, outermost first. -/
structure TreePath where
  root : String
  steps : List Nat

namespace TreePath

/-- The place of the root. -/
def top : TreePath := ⟨"0", []⟩

/-- The place of a child. -/
def child (path : TreePath) (index : Nat) : TreePath :=
  { path with steps := path.steps ++ [index] }

/-- The text of a place: the indexes after the root, with points between them. -/
def text (path : TreePath) : String :=
  path.steps.foldl (fun text index => text ++ "." ++ toString index) path.root

@[simp] theorem text_top : top.text = "0" := rfl

theorem text_child (path : TreePath) (index : Nat) :
    (path.child index).text = path.text ++ "." ++ toString index := by
  simp [child, text]

end TreePath

end SceneLayout
