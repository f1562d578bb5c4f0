import BlockScript.Block.Graph

/-!
# Targets and projects

A target is the stage or a sprite: something that scripts run on, with a block graph of its own. A
project is a list of targets, of which there must be one at least.
-/

namespace BlockScript

/-- The position of a target among the targets of its engine. -/
structure TargetId where
  /-- The position, from zero. -/
  index : Nat
deriving DecidableEq, Repr, Inhabited

/-- The description of a target's position. -/
def TargetId.describe (id : TargetId) : String :=
  "TargetId(" ++ toString id.index ++ ")"

/-- The stage or a sprite. -/
structure Target where
  /-- The name. -/
  name : String
  /-- Whether it is the stage. -/
  isStage : Bool := false
  /-- Its blocks. -/
  blocks : Graph := Table.empty
deriving DecidableEq

/-- What has been read of a target. -/
structure Target.Draft where
  /-- The name. -/
  name : Option String := none
  /-- Whether it is the stage. -/
  isStage : Option Bool := none
  /-- Its blocks. -/
  blocks : Option Graph := none

/-- The target of a draft: only the name must be there. -/
def Target.Draft.finish (draft : Target.Draft) : Except String Target :=
  match draft.name with
  | none => .error "name"
  | some name => .ok ⟨name, draft.isStage.getD false, draft.blocks.getD Table.empty⟩

/-- The written form of a target. -/
def Target.schema : Schema Target.Draft Target where
  name := "Target"
  fields := [
    .ofField "name" Decoder.text (·.name) (fun t v ↦ { t with name := some v }),
    .ofField "isStage" Decoder.boolean (·.isStage) (fun t v ↦ { t with isStage := some v }),
    .ofField "blocks" Graph.decode (·.blocks) (fun t v ↦ { t with blocks := some v })]
  blank := {}
  finish := Target.Draft.finish

/-- Reads a target. -/
def Target.decode : Decoder Target :=
  Target.schema.decode

/-- A project. -/
structure Project where
  /-- The targets in order. -/
  targets : List Target
deriving DecidableEq

/-- The written form of a project. -/
def Project.schema : Schema (Option (List Target)) Project where
  name := "Project"
  fields := [.ofField "targets" (Decoder.list Target.decode) id (fun _ v ↦ some v)]
  blank := none
  finish
    | none => .error "targets"
    | some targets => .ok ⟨targets⟩

/-- Reads a project. -/
def Project.decode : Decoder Project :=
  Project.schema.decode

end BlockScript
