import NatProxy.Lib.Text

/-!
# Compression

A compression writes bytes and reads back what it has written. What it makes of other bytes is not
said.
-/

namespace NatProxy.Lib

structure Flate (α : Type) where
  deflate : List α → List UInt8
  inflate : List UInt8 → Except String (List α)
  inflate_deflate : ∀ data, inflate (deflate data) = .ok data

namespace Flate

/-- Bytes as they are. -/
def stored : Flate UInt8 := ⟨id, .ok, fun _ => rfl⟩

/-- A compression of bytes for texts. -/
def text (flate : Flate UInt8) : Flate Char where
  deflate s := flate.deflate (Text.utf8Encode s)
  inflate data := (flate.inflate data).bind fun bytes =>
    (Text.utf8Decode bytes).elim (.error "invalid UTF-8") .ok
  inflate_deflate s := by
    rw [flate.inflate_deflate, Except.bind, Text.utf8Decode_utf8Encode]
    rfl

end Flate

end NatProxy.Lib
