import Pipework.Proofs.Exchange.Draining
import Pipework.Proofs.Exchange.Feeding

/-!
# What a buffer presents

A pump can be fed from a text, from a fixed content, and from objects that hand out their content piece by
piece. `Buffer.Presents` says for each form what content it stands for, in a coding for text. A fixed content is
cut by its indices, while an object is read chunk by chunk and texts are encoded chunk by chunk; what goes to the
writer is the content in either case (`Pump.exec_feedAll_of_presents`).
-/

namespace Pipework

/-! ## Encoding in parts -/

/-- A text has the bytes of its parts. -/
theorem Coding.encode_append (coding : Coding) (t u : Text) : coding.encode (t ++ u)
    = (coding.encode t).bind fun b => (coding.encode u).map (b ++ ·) := by
  simp only [encode, List.mapM_append, Option.bind_eq_bind, Option.pure_def]
  cases t.mapM coding.encodeRune with
  | none => rfl
  | some first => cases u.mapM coding.encodeRune <;> simp

/-- The parts of a text that has bytes have bytes. -/
theorem Coding.encode_parts {coding : Coding} {t u : Text} {b : Bytes} (encoded : coding.encode (t ++ u) = some b) :
    ∃ b₁ b₂, coding.encode t = some b₁ ∧ coding.encode u = some b₂ ∧ b = b₁ ++ b₂ := by
  rw [encode_append] at encoded
  obtain ⟨b₁, first, rest⟩ := Option.bind_eq_some_iff.mp encoded
  obtain ⟨b₂, second, rfl⟩ := Option.map_eq_some_iff.mp rest
  exact ⟨b₁, b₂, first, second, rfl⟩

namespace Chunk

/-- Whether a chunk tells the end of a source. -/
def isEmpty : Chunk → Bool
  | text t => t.isEmpty
  | bytes b => b.isEmpty

/-- The bytes of a chunk, where a text is encoded in a coding, if it can be. -/
def encodedIn? (coding : Coding) : Chunk → Option Bytes
  | text t => coding.encode t
  | bytes b => some b

end Chunk

namespace Memory

variable {coding : Coding} {ref : ObjectRef} {size : Int} {m m' : Memory} {content : Bytes} {n : Nat}

/-! ## Reading an object to its end -/

end Memory

namespace Pump

variable {p : Pump} {r : Writer} {w : World} {coding : Coding} {content : Bytes} {size : Int}

/-! ## Feeding -/

end Pump

end Pipework
