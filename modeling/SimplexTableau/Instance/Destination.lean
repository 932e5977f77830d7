import SimplexTableau.Text.Phrase

/-!
# Where a file goes

A path is followed from an empty folder: only the folder itself, those above it and the root
are known to exist. A file is then written inside the folder or outside of it, or not at all.
-/

namespace SimplexTableau.Instance

open SimplexTableau.Text

/-- Why a file cannot be written. -/
inductive WriteFault where
  /-- The path leads to a folder. -/
  | isDirectory
  /-- The path leads through a folder that does not exist. -/
  | noDirectory
  /-- A name has more than 255 bytes. -/
  | nameTooLong
  /-- A path cannot hold the character U+0000. -/
  | zeroCharacter
  deriving Repr, DecidableEq

def WriteFault.message : WriteFault → String
  | .isDirectory => "The path leads to a folder."
  | .noDirectory => "There is no such folder."
  | .nameTooLong => "The name is too long."
  | .zeroCharacter => "embedded null byte"

/-- Where a file is written, seen from the folder. -/
inductive Destination where
  | inside (name : String)
  | outside
  deriving Repr, DecidableEq

/-- The steps of a path; single dots and doubled slashes are none. -/
def pathSteps (path : List Char) : List String :=
  ((cut (fun _ rest => if rest.head? = some '/' then 1 else 0) none 0 path).filter fun step =>
    step ≠ [] && step ≠ ['.']).map String.ofList

/-- Follows a path from an empty folder. -/
def Destination.ofPath (path : String) : Except WriteFault Destination :=
  let steps := pathSteps path.toList
  if path.toList.contains (Char.ofNat 0) then .error .zeroCharacter
  else
    match steps.dropWhile (· = "..") with
    | [] => .error .isDirectory
    | name :: further =>
      if 255 < name.utf8ByteSize then .error .nameTooLong
      else if !further.isEmpty then .error .noDirectory
      else if steps.length = 1 && !path.startsWith "/" then .ok (.inside name)
      else .ok .outside

end SimplexTableau.Instance
