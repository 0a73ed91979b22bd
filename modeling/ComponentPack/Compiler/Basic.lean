import ComponentPack.Compiler.Compiled
import ComponentPack.Files.Disk
import ComponentPack.Log

/-!
Template compilers, and one that answers from a list.
-/

namespace ComponentPack

namespace Compiler

open Files

structure Reply where
  result : Except CompilerError Compiled
  disk : Disk
  log : Log := []

end Compiler

/-- A compiler of templates. It gets all templates of a pass at once, and may use files. -/
structure Compiler where
  name : Text
  compile : Compiler.Batch → Files.Disk → Compiler.Reply

namespace Compiler

/-- Answers that are known beforehand. -/
structure Prepared where
  /-- The compiler needs more time than it has. -/
  timeout : Option Nat := none
  /-- The compiler ends with this output. -/
  failure : Option Text := none
  /-- The compiler answers nothing, and that is no error. -/
  silent : Bool := false
  /-- Code and error by the path as it is written. -/
  artifacts : List (Text × Option Text × Option Text) := []
  /-- The code of all other components. -/
  standard : Option Text := none

namespace Prepared

def outcome? (prepared : Prepared) (request : Request) : Option Outcome :=
  match prepared.artifacts.find? fun (path, _) => path = request.path.text with
  | some (_, code, error) => some ⟨request.path, code, error⟩
  | none => prepared.standard.map fun code => ⟨request.path, some code, none⟩

def compile (prepared : Prepared) (batch : Batch) : Except CompilerError Compiled :=
  match prepared.timeout, prepared.failure with
  | some milliseconds, _ => .error (.timeout milliseconds)
  | none, some output => .error (.failed "exit status: 1" output)
  | none, none =>
    if prepared.silent then .ok .empty
    else Compiled.ofOutcomes batch (batch.components.filterMap prepared.outcome?)

def compiler (prepared : Prepared) (name : Text) : Compiler where
  name := name
  compile batch disk := { result := prepared.compile batch, disk := disk }

end Prepared

end Compiler

end ComponentPack
