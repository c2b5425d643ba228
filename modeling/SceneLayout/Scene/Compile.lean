import SceneLayout.Scene.Basic
import SceneLayout.Scene.Name

/-!
# Scenes from trees

A tree is walked in preorder. Every node that is no reference appends one record,
whose rank is final at once; after its children it may append one operator on the
ranks that the children denote. So records are in preorder and operators in
postorder.
-/

namespace SceneLayout

universe u

/-- Why a tree has no scene. -/
inductive CompileError where
  | duplicateName (field : NameField) (name : String)
  | unknownTarget (target : String)
deriving DecidableEq

namespace CompileError

/-- The message of a refusal. -/
def message : CompileError → String
  | duplicateName .key name => "Duplicate key: " ++ name
  | duplicateName .id name => "Duplicate id: " ++ name
  | unknownTarget target => "Unknown ref " ++ target

end CompileError

/-- The name of a node at a place, of which the given names are taken. -/
def NodeName.choose (used : List String) (key id type : Option String) (path : TreePath) :
    Except CompileError String :=
  match explicit? key id with
  | some (field, name) =>
      if used.contains name then .error (.duplicateName field name) else .ok name
  | none => .ok (firstFree used (base type path))

section Shapes

variable {α : Type u} [Scalar α]

open Scalar

/-- The width that is assumed for a character of a text. -/
def textCharacterWidth : Nat := 8

/-- The height that is assumed for a text. -/
def textHeight : Nat := 16

/-- The width of strokes that none is declared for. -/
def defaultStrokeWidth : Kind → Nat
  | .circle => 1
  | _ => 3

/-- A record of a kind without numbers. -/
def Record.empty (id : String) (kind : Kind) : Record α :=
  { id := id, kind := kind, x := nat 0, y := nat 0, width := nat 0, height := nat 0 }

/-- A record painted in a style. -/
def Record.painted (record : Record α) (style : Style α) : Record α :=
  { record with
    fill := style.fill
    stroke := style.stroke
    strokeWidth := some (style.strokeWidth.getD (nat (defaultStrokeWidth record.kind))) }

/-- The record of a shape. -/
def Shape.record (id : String) : Shape α → Record α
  | rect x y width height style =>
      { Record.empty id .rect with x := x, y := y, width := width, height := height }
        |>.painted style
  | background _ style => (Record.empty id .rect).painted style
  | circle r x y style =>
      { Record.empty id .circle with
          r := some r, x := x, y := y, width := r * nat 2, height := r * nat 2 }
        |>.painted style
  | text content x y width height style =>
      { Record.empty id .text with
        text := some content
        x := x
        y := y
        width := width.getD (nat (content.length * textCharacterWidth))
        height := height.getD (nat textHeight)
        fill := some (style.fill.getD "black")
        stroke := style.stroke
        strokeWidth := style.strokeWidth }
  | arrow style => (Record.empty id .arrow).painted style
  | _ => Record.empty id .none

/-- The span of an entity along an axis. -/
def spanOf (axis : Axis) (rank : Nat) : Span :=
  ⟨baseOf rank + axis.position, baseOf rank + axis.extent⟩

/-- The operator that aligns entities. Centers along the first axis follow the last entity; along
the second one they meet at their mean. -/
def alignOperator (axis : Axis) (alignment : Alignment) (children : List Nat) : Operator α :=
  match alignment with
  | .start => .alignNear (children.map fun rank => baseOf rank + axis.position)
  | .finish => .alignFar (children.map (spanOf axis))
  | .center =>
      match axis, children.getLast?, children.dropLast with
      | .x, some last, first :: others =>
          .centerOn (spanOf .x last) ((first :: others).map (spanOf .x))
      | _, _, _ => .alignCenter (children.map (spanOf axis))

/-- The operator of a shape, on the ranks of its own record and of its children. -/
def Shape.operator? (rank : Nat) (children : List Nat) : Shape α → Option (Operator α)
  | stack axis spacing alignment =>
      some (.stack axis (children.map baseOf) (baseOf rank) spacing alignment)
  | align axis alignment => some (alignOperator axis alignment children)
  | distribute axis spacing => some (.distribute (children.map (spanOf axis)) spacing)
  | background padding _ =>
      children.head?.map fun child => .background (baseOf child) (baseOf rank) padding
  | _ => none

end Shapes

/-- The scene as far as the tree has been walked. -/
abbrev Draft (α : Type u) := Scene α

namespace Draft

variable {α : Type u} [Scalar α]

/-- The rank of the record with an id. -/
def rankOf? (draft : Draft α) (id : String) : Option Nat :=
  draft.records.findIdx? fun record => record.id == id

/-- Appends a record. -/
def addRecord (draft : Draft α) (record : Record α) : Draft α :=
  { draft with records := draft.records ++ [record] }

/-- Lets an arrow lead from the first of its children to the second. -/
def connect (draft : Draft α) (rank : Nat) (children : List Nat) : Draft α :=
  match children.filterMap fun child => draft.ids[child]? with
  | source :: target :: _ =>
      { draft with
        records := draft.records.modify rank fun record =>
          { record with fromId := some source, toId := some target } }
  | _ => draft

/-- Completes a node after its children. -/
def close (draft : Draft α) (shape : Shape α) (rank : Nat) (children : List Nat) : Draft α :=
  match shape with
  | .arrow _ => draft.connect rank children
  | shape => { draft with operators := draft.operators ++ (shape.operator? rank children).toList }

end Draft

namespace Tree

variable {α : Type u} [Scalar α]

mutual

/-- Walks a tree at a place; gives the rank of the record that the tree denotes. -/
def place (path : TreePath) (draft : Draft α) : Tree α → Except CompileError (Nat × Draft α)
  | ref target =>
      match Draft.rankOf? draft target with
      | some rank => .ok (rank, draft)
      | none => .error (.unknownTarget target)
  | node key id shape children =>
      match NodeName.choose draft.ids key id shape.typeName path with
      | .error error => .error error
      | .ok name =>
          match placeAll path 0 (Draft.addRecord draft (shape.record name)) children with
          | .error error => .error error
          | .ok (ranks, after) =>
              .ok (draft.records.length, Draft.close after shape draft.records.length ranks)

/-- Walks the children at a place, of which the first has the given index. -/
def placeAll (path : TreePath) (index : Nat) (draft : Draft α) :
    List (Tree α) → Except CompileError (List Nat × Draft α)
  | [] => .ok ([], draft)
  | tree :: rest =>
      match place (path.child index) draft tree with
      | .error error => .error error
      | .ok (rank, draft) =>
          match placeAll path (index + 1) draft rest with
          | .error error => .error error
          | .ok (ranks, draft) => .ok (rank :: ranks, draft)

end

/-- The scene of a tree. -/
def compile (tree : Tree α) : Except CompileError (Scene α) :=
  (tree.place .top ⟨[], []⟩).map Prod.snd

end Tree

end SceneLayout
