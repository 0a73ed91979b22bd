/-!
The instances that the definitions of this library are built with. They come before others of their
kind, so that a definition means the same where more instances are in scope.
-/

namespace ComponentPack

instance (priority := 2000) powNat : Pow Nat Nat := ⟨Nat.pow⟩

instance (priority := 2000) powInt : Pow Int Nat := ⟨Int.pow⟩

instance (priority := 2000) leText : LE (List Char) := List.instLE

instance (priority := 2000) minRat : Min Rat := Rat.instMin

instance (priority := 2000) maxRat : Max Rat := Rat.instMax

instance (priority := 2000) decidableEqBytes : DecidableEq ByteArray := ByteArray.instDecidableEq

end ComponentPack
