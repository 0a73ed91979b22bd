import ComponentPack.Text.Basic

/-!
What comes of a command of a shell that only writes or tests.
-/

namespace ComponentPack.Host

structure Report where
  text : Text := []
  complaints : List Text := []
  code : Nat := 0
deriving DecidableEq, Repr

namespace Report

def append (a b : Report) : Report :=
  ⟨a.text ++ b.text, a.complaints ++ b.complaints, if b.code = 0 then a.code else b.code⟩

def refusal (code : Nat) (complaint : Text) : Report :=
  { complaints := [complaint], code := code }

end Report

end ComponentPack.Host
