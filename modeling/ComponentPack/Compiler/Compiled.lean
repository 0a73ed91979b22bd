import ComponentPack.Compiler.Batch

/-!
The render code of a whole batch. Every request needs an answer: the last outcome with its path
counts, and it answers one request only.
-/

namespace ComponentPack.Compiler

inductive CompilerError where
  | setup (reason : Text)
  | spawn (program reason : Text)
  | transfer (reason : Text)
  | timeout (milliseconds : Nat)
  | failed (status output : Text)
  | invalidResponse (reason : Text)
  | missingArtifact (path : Text)
deriving DecidableEq, Repr

def CompilerError.message : CompilerError → Text
  | setup reason => "Failed to prepare template compiler: " ++ reason
  | spawn program reason =>
    "Failed to start template compiler `" ++ program ++ "`: " ++ reason
  | transfer reason => "Template compiler I/O error: " ++ reason
  | timeout milliseconds =>
    "Template compiler timed out after " ++ Text.ofNat milliseconds ++ "ms"
  | failed status output =>
    "Template compiler exited with " ++ status ++ ": " ++ output
  | invalidResponse reason => "Invalid template compiler response: " ++ reason
  | missingArtifact path => "Template compiler returned no artifact for " ++ path

/-- The answer for a component: its render code, or what is wrong with its template. -/
abbrev Artifact := Except Text Text

/-- The answers of a batch in the order of its requests. -/
structure Compiled where
  artifacts : List (Path × Artifact)

namespace Compiled

def empty : Compiled := ⟨[]⟩

def isEmpty (compiled : Compiled) : Bool := compiled.artifacts.isEmpty

def size (compiled : Compiled) : Nat := compiled.artifacts.length

/-- The answer for a component, under any spelling of its path. -/
def get? (compiled : Compiled) (path : Path) : Option Artifact :=
  (compiled.artifacts.find? fun (key, _) => key.equivalent path).map Prod.snd

/-- The answer that an outcome gives. Code without any character but blanks is none. -/
def artifact? (outcome : Outcome) : Option Artifact :=
  match outcome.error, outcome.code with
  | some error, _ => some (.error error)
  | none, some code => if (Text.trim code).isEmpty then none else some (.ok code)
  | none, none => none

def lastOutcome? (outcomes : List Outcome) (path : Path) : Option Outcome :=
  outcomes.reverse.find? fun outcome => outcome.path.equivalent path

def without (outcomes : List Outcome) (path : Path) : List Outcome :=
  outcomes.filter fun outcome => !outcome.path.equivalent path

def answers : List Request → List Outcome → Except CompilerError (List (Path × Artifact))
  | [], _ => .ok []
  | request :: requests, outcomes =>
    match (lastOutcome? outcomes request.path).bind artifact? with
    | none => .error (.missingArtifact request.path.text)
    | some artifact =>
      match answers requests (without outcomes request.path) with
      | .error e => .error e
      | .ok rest => .ok ((request.path, artifact) :: rest)

def ofOutcomes (batch : Batch) (outcomes : List Outcome) : Except CompilerError Compiled :=
  match answers batch.components outcomes with
  | .error e => .error e
  | .ok artifacts => .ok ⟨artifacts⟩

end Compiled

end ComponentPack.Compiler
