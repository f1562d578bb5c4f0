import BlockScript.Thread.Basic

/-!
# Descriptions of threads

The one-line description of a thread with all its fields, the stack written from its outermost level
inward. A compiled program is not spelled out.
-/

namespace BlockScript

/-- A truth value in a description. -/
def describeBool (b : Bool) : String :=
  if b then "true" else "false"

/-- Descriptions in brackets, with commas between them. -/
def describeList (texts : List String) : String :=
  "[" ++ ", ".intercalate texts ++ "]"

/-- Named parts in braces after the name of the whole. -/
def describeRecord (name : String) (parts : List (String × String)) : String :=
  name ++ " \x7b " ++ ", ".intercalate (parts.map fun part ↦ part.1 ++ ": " ++ part.2) ++ " \x7d"

/-- The description of a level. -/
def Level.describe (l : Level) : String :=
  describeRecord "StackLevel" [
    ("block_id", Text.quotedOption l.block),
    ("frame", l.frame.describe),
    ("target_change", describeBool l.switched)]

/-- The description of what came of compiling. -/
def Compilation.describe : Compilation → String
  | .pending => "Pending"
  | .compiled _ => "Compiled"
  | .failed => "Failed"

/-- The description of a thread. A running warp timer has no description, and so none is given of a
thread with one. -/
def Thread.describe? (t : Thread) : Option String :=
  match t.warpTimer with
  | some _ => none
  | none => some <| describeRecord "Thread" [
      ("top_block", Text.quoted t.topBlock),
      ("levels", describeList (t.levels.reverse.map Level.describe)),
      ("target", t.target.describe),
      ("target_stack", describeList (t.targetStack.reverse.map TargetId.describe)),
      ("status", t.status.name),
      ("is_killed", describeBool t.killed),
      ("compilation", t.compilation.describe),
      ("request_script_glow_in_frame", describeBool t.scriptGlow),
      ("block_glow_in_frame", Text.quotedOption t.blockGlow),
      ("warp_timer", "None"),
      ("just_reported", Text.optional (t.justReported.map Value.describe))]

end BlockScript
