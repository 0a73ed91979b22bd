import ComponentPack.Text.Basic

/-!
Text written into single-quoted literals of the module, and its indentation.
-/

namespace ComponentPack.Module

/-- A template inside a literal, after the blanks around it are gone. A line break continues the
literal on the next line, two blanks in; of a carriage return and a line feed only the latter
counts. -/
def embedTrimmed : Text → Text
  | [] => []
  | '\r' :: '\n' :: rest => '\\' :: '\n' :: ' ' :: ' ' :: embedTrimmed rest
  | c :: rest =>
    (if c = '\\' then ['\\', '\\']
      else if c = '\'' then ['\\', '\'']
      else if c = '\r' then ['\\', 'r']
      else if c = '\n' then ['\\', '\n', ' ', ' ']
      else [c]) ++ embedTrimmed rest

def embed (template : Text) : Text := embedTrimmed (Text.trim template)

def escapeName (name : Text) : Text :=
  name.flatMap fun c =>
    if c = '\\' then ['\\', '\\']
    else if c = '\'' then ['\\', '\'']
    else if c = '\n' then ['\\', 'n']
    else [c]

/-- Moves every line that is not empty to the right. -/
def indent (width : Nat) (text : Text) : Text :=
  Text.joinLines ((Text.lines text).map fun line =>
    if line.isEmpty then [] else List.replicate width ' ' ++ line)

def indentTail (width : Nat) (text : Text) : Text :=
  match Text.cut? ['\n'] text with
  | some (first, rest) => first ++ '\n' :: indent width rest
  | none => text

end ComponentPack.Module
