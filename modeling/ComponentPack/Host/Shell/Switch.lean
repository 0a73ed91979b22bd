import ComponentPack.Host.Shell.Expression

/-!
The switches of the commands of a shell: letters after a hyphen, some of which have a value. A word
`--` ends them.
-/

namespace ComponentPack.Host

structure Switch where
  letter : Char
  value : Text := []
deriving DecidableEq, Repr

namespace Switch

def cluster (known valued : Text) : Text → Except Text (List Switch × Option Char)
  | [] => .ok ([], none)
  | letter :: rest =>
    if letter ∈ valued then
      if rest.isEmpty then .ok ([], some letter) else .ok ([⟨letter, rest⟩], none)
    else if letter ∈ known then
      match cluster known valued rest with
      | .ok (switches, missing?) => .ok (⟨letter, []⟩ :: switches, missing?)
      | .error e => .error e
    else .error ("Illegal option -" ++ [letter])

def read (known valued : Text) : List Text → Except Text (List Switch × List Text)
  | [] => .ok ([], [])
  | ['-', '-'] :: rest => .ok ([], rest)
  | ('-' :: letter :: letters) :: rest =>
    match cluster known valued (letter :: letters), rest with
    | .error e, _ => .error e
    | .ok (switches, none), rest =>
      (read known valued rest).map fun (others, words) => (switches ++ others, words)
    | .ok (_, some letter), [] => .error ("No arg for -" ++ [letter] ++ " option")
    | .ok (switches, some letter), value :: rest =>
      (read known valued rest).map fun (others, words) =>
        (switches ++ ⟨letter, value⟩ :: others, words)
  | words => .ok ([], words)

def number (word : Text) : Except Text Nat :=
  let digits := match Expression.stripped word with
    | '+' :: digits => digits
    | digits => digits
  match (Expression.digits? 10 digits).filter (· < 2 ^ (31 : Nat)) with
  | some n => .ok n
  | none => .error ("Illegal number: " ++ word)

end Switch

end ComponentPack.Host
