import Pipework.Proofs.Text.Decoding
import Pipework.Proofs.Vigil.Strands

/-!
# What a buffer takes

A pump puts one chunk after another into its buffer. What an object has taken then does not depend on how the
content was cut (`Cell.Took.append`): bytes go to it as they are, and a text object gets what the decoder makes of
all of them, with the rest that the decoder kept at the end (`Pump.Collects`).
-/

namespace Pipework

/-! ## Writing piece by piece -/

namespace Memory

variable {α : Type}

theorem overwrite_nil (fill : α) (content : List α) (position : Nat) :
    overwrite fill content position [] = content := rfl

/-- To write two pieces one behind the other is to write them at once. -/
theorem overwrite_overwrite (fill : α) (content : List α) (position : Nat) (a b : List α) :
    overwrite fill (overwrite fill content position a) (position + a.length) b
      = overwrite fill content position (a ++ b) := by
  by_cases noA : a = []
  · subst noA
    rfl
  by_cases noB : b = []
  · subst noB
    rw [overwrite_nil, List.append_nil]
  generalize front : content.take position ++ List.replicate (position - content.length) fill = start
  have length : (start ++ a).length = position + a.length := by
    rw [← front]
    simp only [List.length_append, List.length_take, List.length_replicate]
    omega
  have first : overwrite fill content position a = (start ++ a) ++ content.drop (position + a.length) := by
    rw [overwrite, if_neg (by simpa using noA), front]
  have filled : position + a.length - (overwrite fill content position a).length = 0 := by
    rw [first, List.length_append, length]
    omega
  have dropped : (overwrite fill content position a).drop (position + a.length + b.length)
      = content.drop (position + a.length + b.length) := by
    rw [first, ← List.drop_drop, ← length, List.drop_left, List.drop_drop]
  rw [overwrite, if_neg (by simpa using noB), filled, dropped, first, ← length, List.take_left, overwrite,
    if_neg (by simp [noA]), front, length]
  simp [Nat.add_assoc]

end Memory

/-- The objects that take bytes. -/
def ObjectKind.TakesBytes (kind : ObjectKind) : Prop := kind = .byteArray ∨ kind = .byteStream ∨ kind = .sink

/-- The objects that take text. -/
def ObjectKind.TakesText (kind : ObjectKind) : Prop := kind = .textStream ∨ kind = .textSink

theorem ObjectKind.TakesBytes.noText {kind : ObjectKind} (bytes : kind.TakesBytes) : ¬ kind.TakesText := by
  rintro (text | text) <;> rcases bytes with bytes | bytes | bytes <;> cases bytes.symm.trans text

namespace Cell

/-- An object has taken some bytes, in whatever pieces: a byte array and a stream hold them behind what they held,
or from the position on, and a writer was handed them. -/
inductive Took (b : Bytes) : Cell → Cell → Prop where
  | byteArray (content : Bytes) : Took b (.byteArray content) (.byteArray (content ++ b))
  | byteStream (content : Bytes) (position : Nat) :
    Took b (.byteStream content position) (.byteStream (Memory.overwrite 0 content position b) (position + b.length))
  | sink {pieces : List Bytes} (written : List Bytes) (refusal : Option (Nat × SystemError))
    (whole : pieces.flatten = b) : Took b (.sink written refusal) (.sink (written ++ pieces) refusal)

/-- An object has taken some text, in whatever pieces. -/
inductive TookText (t : Text) : Cell → Cell → Prop where
  | textStream (content : Text) (position : Nat) : TookText t (.textStream content position)
    (.textStream (Memory.overwrite (.char '\x00') content position t) (position + t.length))
  | textSink {pieces : List Text} (written : List Text) (whole : pieces.flatten = t) :
    TookText t (.textSink written) (.textSink (written ++ pieces))

/-- An object has taken some writes, one after the other. A byte array holds them behind what it held, and a writer
was handed each of them; a stream is written over from the position at which it stood. -/
inductive TookEach : List Chunk → Cell → Cell → Prop where
  | byteArray (content : Bytes) (pieces : List Bytes) :
    TookEach (pieces.map .bytes) (.byteArray content) (.byteArray (content ++ pieces.flatten))
  | byteStream (content : Bytes) (position : Nat) (pieces : List Bytes) :
    TookEach (pieces.map .bytes) (.byteStream content position)
      (.byteStream (Memory.overwrite 0 content position pieces.flatten) (position + pieces.flatten.length))
  | sink (written : List Bytes) (refusal : Option (Nat × SystemError)) (pieces : List Bytes) :
    TookEach (pieces.map .bytes) (.sink written refusal) (.sink (written ++ pieces) refusal)
  | textStream (content : Text) (position : Nat) (pieces : List Text) :
    TookEach (pieces.map .text) (.textStream content position)
      (.textStream (Memory.overwrite (.char '\x00') content position pieces.flatten)
        (position + pieces.flatten.length))
  | textSink (written pieces : List Text) :
    TookEach (pieces.map .text) (.textSink written) (.textSink (written ++ pieces))

variable {x y z : Cell} {a b : Bytes} {t u : Text} {writes more : List Chunk}

theorem Took.nothing (takes : x.kind.TakesBytes) : Took [] x x := by
  cases x with
  | byteArray content => simpa using Took.byteArray (b := []) content
  | byteStream content position => exact .byteStream content position
  | sink written refusal => simpa using Took.sink written refusal (List.flatten_nil (α := UInt8))
  | textStream | textSink | source | iterator => rcases takes with h | h | h <;> cases h

theorem TookText.nothing (takes : x.kind.TakesText) : TookText [] x x := by
  cases x with
  | textStream content position => exact .textStream content position
  | textSink written => simpa using TookText.textSink written (List.flatten_nil (α := Rune))
  | byteArray | byteStream | sink | source | iterator => rcases takes with h | h <;> cases h

/-- What is taken in two steps is taken. -/
theorem Took.append (first : Took a x y) (second : Took b y z) : Took (a ++ b) x z := by
  cases first with
  | byteArray content =>
    cases second
    rw [List.append_assoc]
    exact .byteArray content
  | byteStream content position =>
    cases second
    rw [Memory.overwrite_overwrite, Nat.add_assoc, ← List.length_append]
    exact .byteStream content position
  | sink written refusal whole =>
    cases second with
    | sink _ _ whole' =>
      rw [List.append_assoc]
      exact .sink written refusal (by rw [List.flatten_append, whole, whole'])

theorem TookText.append (first : TookText t x y) (second : TookText u y z) : TookText (t ++ u) x z := by
  cases first with
  | textStream content position =>
    cases second
    rw [Memory.overwrite_overwrite, Nat.add_assoc, ← List.length_append]
    exact .textStream content position
  | textSink written whole =>
    cases second with
    | textSink _ whole' =>
      rw [List.append_assoc]
      exact .textSink written (by rw [List.flatten_append, whole, whole'])

theorem TookEach.nothing (takes : x.kind.TakesBytes ∨ x.kind.TakesText) : TookEach [] x x := by
  cases x with
  | byteArray content => simpa using TookEach.byteArray content []
  | byteStream content position => exact .byteStream content position []
  | sink written refusal => simpa using TookEach.sink written refusal []
  | textStream content position => exact .textStream content position []
  | textSink written => simpa using TookEach.textSink written []
  | source | iterator => rcases takes with (h | h | h) | h | h <;> cases h

theorem TookEach.kind (took : TookEach writes x y) : y.kind = x.kind := by cases took <;> rfl

theorem TookEach.append (first : TookEach writes x y) (second : TookEach more y z) : TookEach (writes ++ more) x z := by
  cases first with
  | byteArray content pieces =>
    cases second with
    | byteArray _ later =>
      rw [← List.map_append, List.append_assoc, ← List.flatten_append]
      exact .byteArray content _
  | byteStream content position pieces =>
    cases second with
    | byteStream _ _ later =>
      rw [← List.map_append, Memory.overwrite_overwrite, Nat.add_assoc, ← List.length_append, ← List.flatten_append]
      exact .byteStream content position _
  | sink written refusal pieces =>
    cases second with
    | sink _ _ later =>
      rw [← List.map_append, List.append_assoc]
      exact .sink written refusal _
  | textStream content position pieces =>
    cases second with
    | textStream _ _ later =>
      rw [← List.map_append, Memory.overwrite_overwrite, Nat.add_assoc, ← List.length_append, ← List.flatten_append]
      exact .textStream content position _
  | textSink written pieces =>
    cases second with
    | textSink _ later =>
      rw [← List.map_append, List.append_assoc]
      exact .textSink written _

/-- One write is bytes or text that was taken. -/
theorem TookEach.took (one : TookEach [.bytes b] x y) : x.Took b y := by
  generalize single : [Chunk.bytes b] = writes at one
  cases one with
  | byteArray | byteStream =>
    obtain ⟨_, rfl, ⟨⟩⟩ := List.map_eq_singleton_iff.mp single.symm
    rw [List.flatten_singleton]
    constructor
  | sink written refusal =>
    obtain ⟨_, rfl, ⟨⟩⟩ := List.map_eq_singleton_iff.mp single.symm
    exact .sink written refusal List.flatten_singleton
  | textStream | textSink =>
    obtain ⟨_, _, ⟨⟩⟩ := List.map_eq_singleton_iff.mp single.symm

theorem TookEach.tookText (one : TookEach [.text t] x y) : x.TookText t y := by
  generalize single : [Chunk.text t] = writes at one
  cases one with
  | byteArray | byteStream | sink =>
    obtain ⟨_, _, ⟨⟩⟩ := List.map_eq_singleton_iff.mp single.symm
  | textStream =>
    obtain ⟨_, rfl, ⟨⟩⟩ := List.map_eq_singleton_iff.mp single.symm
    rw [List.flatten_singleton]
    constructor
  | textSink written =>
    obtain ⟨_, rfl, ⟨⟩⟩ := List.map_eq_singleton_iff.mp single.symm
    exact .textSink written List.flatten_singleton

end Cell

namespace Memory

variable {m m' : Memory} {ref : ObjectRef} {b : Bytes} {t : Text} {x : Cell}

/-- What an object takes, it holds. -/
theorem tookEach_of_writeBytes (here : m.get? ref = some x) (wrote : m.writeBytes ref b = (.ok (), m')) :
    ∃ y, m'.get? ref = some y ∧ x.TookEach [.bytes b] y := by
  have put (y : Cell) : (m.put ref y).get? ref = some y := get?_put (by rw [here]; rfl)
  rw [writeBytes, here] at wrote
  cases x with
  | byteArray content =>
    cases wrote
    exact ⟨_, put _, by simpa using Cell.TookEach.byteArray content [b]⟩
  | byteStream content position =>
    cases wrote
    exact ⟨_, put _, by simpa using Cell.TookEach.byteStream content position [b]⟩
  | sink written refusal =>
    dsimp only at wrote
    split at wrote <;> cases wrote
    exact ⟨_, put _, .sink written refusal [b]⟩
  | textStream | textSink | source | iterator => cases wrote

theorem tookEach_of_writeText (here : m.get? ref = some x) (wrote : m.writeText ref t = (.ok (), m')) :
    ∃ y, m'.get? ref = some y ∧ x.TookEach [.text t] y := by
  have put (y : Cell) : (m.put ref y).get? ref = some y := get?_put (by rw [here]; rfl)
  rw [writeText, here] at wrote
  cases x with
  | textStream content position =>
    cases wrote
    exact ⟨_, put _, by simpa using Cell.TookEach.textStream content position [t]⟩
  | textSink written =>
    cases wrote
    exact ⟨_, put _, .textSink written [t]⟩
  | byteArray | byteStream | sink | source | iterator => cases wrote

theorem took_of_writeBytes (here : m.get? ref = some x) (wrote : m.writeBytes ref b = (.ok (), m')) :
    ∃ y, m'.get? ref = some y ∧ x.Took b y := by
  obtain ⟨y, after, one⟩ := tookEach_of_writeBytes here wrote
  exact ⟨y, after, one.took⟩

theorem took_of_writeText (here : m.get? ref = some x) (wrote : m.writeText ref t = (.ok (), m')) :
    ∃ y, m'.get? ref = some y ∧ x.TookText t y := by
  obtain ⟨y, after, one⟩ := tookEach_of_writeText here wrote
  exact ⟨y, after, one.tookText⟩

end Memory

namespace Pump

variable {p p' : Pump} {w w' : World} {ref : ObjectRef} {coding : Coding} {chunk drawn : Bytes} {x : Cell}

/-- The decoder of a pump goes on from where it stands, or begins. -/
theorem theDecoder_ok {d : Decoder} (ran : theDecoder.exec p w = (.ok d, p', w')) :
    p' = p ∧ w' = w ∧ (p.decoder = some d ∨
      p.decoder = none ∧ ∃ coding, p.codingFor "lookup() argument" = .ok coding ∧ d = ⟨coding, .none⟩) := by
  unfold theDecoder at ran
  rw [Owning.exec_bind, Owning.exec_own] at ran
  dsimp only at ran
  split at ran
  · next known =>
    cases ran
    exact ⟨rfl, rfl, .inl known⟩
  · next unknown =>
    rw [Owning.exec_bind, Owning.exec_lift, Sim.exec_ofExcept] at ran
    cases found : p.codingFor "lookup() argument" with
    | error e =>
      rw [found] at ran
      cases ran
    | ok coding =>
      rw [found] at ran
      cases ran
      exact ⟨rfl, rfl, .inr ⟨unknown, coding, rfl, rfl⟩⟩

/-- What a pump has put into an object since this held a cell: the bytes that it has drawn, or what the decoder has
made of them so far. -/
inductive Collects (coding : Coding) (ref : ObjectRef) (x : Cell) (drawn : Bytes) (p : Pump) (m : Memory) : Prop where
  | bytes {y : Cell} (kind : ref.kind.TakesBytes) (here : m.get? ref = some y) (took : x.Took drawn y)
    (noDecoder : p.decoder = none) : Collects coding ref x drawn p m
  | text {y : Cell} (kind : ref.kind.TakesText) (here : m.get? ref = some y)
    (took : x.TookText (((Decoder.mk coding .none).feed drawn).2.map Piece.replaced) y)
    (decoder : p.decoder = some ((Decoder.mk coding .none).feed drawn).1 ∨ p.decoder = none ∧ drawn = []) :
    Collects coding ref x drawn p m

/-- To put a chunk into an object that takes bytes is to write it there. -/
theorem exec_writeBuffer_bytes (buffer : p.buffer = .object ref) (kind : ref.kind.TakesBytes) :
    (writeBuffer chunk).exec p w
      = ((w.memory.writeBytes ref chunk).1, p, { w with memory := (w.memory.writeBytes ref chunk).2 }) := by
  unfold writeBuffer
  rw [Owning.exec_bind, Owning.exec_own]
  dsimp only
  rw [buffer]
  rcases kind with kind | kind | kind
  all_goals simp only [kind, Owning.exec_lift, exec_onMemory]

theorem writeBuffer_bytes_ok (buffer : p.buffer = .object ref) (kind : ref.kind.TakesBytes)
    (ran : (writeBuffer chunk).exec p w = (.ok (), p', w')) :
    p' = p ∧ w.memory.writeBytes ref chunk = (.ok (), w'.memory) := by
  rw [exec_writeBuffer_bytes buffer kind] at ran
  generalize w.memory.writeBytes ref chunk = result at ran ⊢
  obtain ⟨outcome, memory⟩ := result
  cases ran
  exact ⟨rfl, rfl⟩

/-- To put a chunk into an object that takes text is to write there what the decoder makes of it. -/
theorem writeBuffer_text_ok (buffer : p.buffer = .object ref) (kind : ref.kind.TakesText)
    (ran : (writeBuffer chunk).exec p w = (.ok (), p', w')) :
    ∃ d, theDecoder.exec p w = (.ok d, p, w) ∧ p' = { p with decoder := some (d.feed chunk).1 } ∧
      w.memory.writeText ref ((d.feed chunk).2.map Piece.replaced) = (.ok (), w'.memory) := by
  unfold writeBuffer at ran
  rw [Owning.exec_bind, Owning.exec_own] at ran
  dsimp only at ran
  rw [buffer] at ran
  obtain ⟨decoder, found⟩ := exec_theDecoder p w
  rcases kind with kind | kind
  all_goals
    simp only [kind, Owning.exec_bind, found] at ran
    cases decoder with
    | error e => cases ran
    | ok d =>
      simp only [Owning.exec_change, Owning.exec_lift, exec_onMemory] at ran
      generalize written : w.memory.writeText ref ((d.feed chunk).2.map Piece.replaced) = result at ran
      obtain ⟨outcome, memory⟩ := result
      cases ran
      exact ⟨d, found, rfl, written⟩

/-- Only the decoder and what the object holds matter. -/
theorem Collects.of_same {m m' : Memory} (collects : Collects coding ref x drawn p m)
    (decoder : p'.decoder = p.decoder) (same : m'.get? ref = m.get? ref) : Collects coding ref x drawn p' m' := by
  cases collects with
  | bytes kind here took noDecoder => exact .bytes kind (same.trans here) took (decoder.trans noDecoder)
  | text kind here took stands => exact .text kind (same.trans here) took (decoder ▸ stands)

/-- Before anything is put, the object holds what it held. -/
theorem Collects.nothing {m : Memory} (here : m.get? ref = some x) (kind : ref.kind = x.kind)
    (takes : x.kind.TakesBytes ∨ x.kind.TakesText) (fresh : p.decoder = none) : Collects coding ref x [] p m := by
  rcases takes with takes | takes
  · exact .bytes (kind ▸ takes) here (.nothing takes) fresh
  · exact .text (kind ▸ takes) here (.nothing takes) (.inr ⟨fresh, rfl⟩)

/-- A chunk is put behind what was put before. -/
theorem Collects.writeBuffer (collects : Collects coding ref x drawn p w.memory) (buffer : p.buffer = .object ref)
    (coded : ref.kind.TakesText → p.codingFor "lookup() argument" = .ok coding)
    (ran : (writeBuffer chunk).exec p w = (.ok (), p', w')) :
    Collects coding ref x (drawn ++ chunk) p' w'.memory ∧ p'.moved = p.moved ∧ p'.error = p.error := by
  cases collects with
  | bytes kind here took noDecoder =>
    obtain ⟨rfl, written⟩ := writeBuffer_bytes_ok buffer kind ran
    obtain ⟨z, after, next⟩ := Memory.took_of_writeBytes here written
    exact ⟨.bytes kind after (took.append next) noDecoder, rfl, rfl⟩
  | text kind here took decoder =>
    obtain ⟨d, found, rfl, written⟩ := writeBuffer_text_ok buffer kind ran
    obtain ⟨z, after, next⟩ := Memory.took_of_writeText here written
    obtain rfl : d = ((Decoder.mk coding .none).feed drawn).1 := by
      obtain ⟨-, -, known⟩ := theDecoder_ok found
      rcases decoder with stands | ⟨fresh, rfl⟩
      · rcases known with same | ⟨unknown, -⟩
        · exact Option.some.inj (same.symm.trans stands)
        · exact nomatch unknown.symm.trans stands
      · rcases known with same | ⟨-, _, named, rfl⟩
        · exact nomatch fresh.symm.trans same
        · cases named.symm.trans (coded kind)
          rfl
    refine ⟨.text kind after ?_ (.inl ?_), rfl, rfl⟩
    · rw [Decoder.feed_append, List.map_append]
      exact took.append next
    · rw [Decoder.feed_append]

/-- The rest of a text is written if there is any. -/
theorem exec_writeTail_cases (p : Pump) (w : World) :
    writeTail.exec p w = (.ok (), p, w) ∧ (∀ d ref, p.decoder = some d → p.buffer = .object ref → d.finish = []) ∨
      ∃ d ref, p.decoder = some d ∧ p.buffer = .object ref ∧ d.finish ≠ [] ∧
        writeTail.exec p w = ((w.memory.writeText ref (d.finish.map Piece.replaced)).1, p,
          { w with memory := (w.memory.writeText ref (d.finish.map Piece.replaced)).2 }) := by
  unfold writeTail
  rw [Owning.exec_bind, Owning.exec_own]
  dsimp only
  split
  · next d ref stands buffer =>
    split
    · next nothing =>
      refine .inl ⟨rfl, fun d' ref' stands' _ => ?_⟩
      cases stands.symm.trans stands'
      exact List.map_eq_nil_iff.mp (List.isEmpty_iff.mp nothing)
    · next any =>
      refine .inr ⟨d, ref, stands, buffer, fun nothing => any (by rw [nothing]; rfl), ?_⟩
      rw [Owning.exec_lift, exec_onMemory]
  · next other => exact .inl ⟨rfl, fun d ref stands buffer => absurd buffer (other d ref stands)⟩

/-- In the end a text object gets the rest that the decoder kept. -/
theorem Collects.writeTail (collects : Collects coding ref x drawn p w.memory) (buffer : p.buffer = .object ref)
    (ran : Pump.writeTail.exec p w = (.ok (), p', w')) :
    p' = p ∧ ∃ y, w'.memory.get? ref = some y ∧
      (ref.kind.TakesBytes → x.Took drawn y) ∧
      (ref.kind.TakesText → x.TookText (coding.decodeReplacing drawn) y) := by
  have whole := coding.decodeReplacing_eq drawn
  rcases exec_writeTail_cases p w with ⟨same, nothing⟩ | ⟨d, ref', stands', buffer', any, same⟩
  · cases ran.symm.trans same
    refine ⟨rfl, ?_⟩
    cases collects with
    | bytes kind here took => exact ⟨_, here, fun _ => took, fun text => absurd text kind.noText⟩
    | text kind here took decoder =>
      have rest : ((Decoder.mk coding .none).feed drawn).1.finish = [] := by
        rcases decoder with stands | ⟨-, rfl⟩
        · exact nothing _ ref stands buffer
        · rfl
      rw [rest, List.map_nil, List.append_nil] at whole
      exact ⟨_, here, fun bytes => absurd kind bytes.noText, fun _ => whole ▸ took⟩
  · cases buffer.symm.trans buffer'
    generalize written : w.memory.writeText ref (d.finish.map Piece.replaced) = result at same
    obtain ⟨outcome, memory⟩ := result
    cases ran.symm.trans same
    refine ⟨rfl, ?_⟩
    cases collects with
    | bytes kind here took noDecoder => exact nomatch noDecoder.symm.trans stands'
    | text kind here took decoder =>
      obtain ⟨z, after, next⟩ := Memory.took_of_writeText here written
      rcases decoder with stands | ⟨fresh, -⟩
      · cases stands.symm.trans stands'
        exact ⟨z, after, fun bytes => absurd kind bytes.noText, fun _ => whole ▸ took.append next⟩
      · exact nomatch fresh.symm.trans stands'

end Pump

end Pipework
